import Mathlib.Algebra.Order.BigOperators.Group.List
import Mathlib.Data.List.Infix
import MyOriShop.Lib.Text
import MyOriShop.Lib.IsoDate

/-!
# Core: ids, money, currencies and time (`app/core.py`)

* `toCents` is `to_cents`: the text goes through `Decimal` (Unicode decimal digits, underscores,
  an exponent), is rounded half up to the cent, and must fit the 28 digits of the decimal context.
  `formatCents` is `format_cents`.
* `cardPriceFields` is `card_price_fields`; a card price column is a `PriceField`.
* `Env` is what one request takes from outside: the settings, the request's user and warehouses,
  the clock, the time zone and the UUID source. A UUID is fresh by its type.
-/

namespace MyOriShop

open Lib.Text Lib.IsoDate

/-! ## Money -/

/-- The code points of the decimal digit zero of each script. -/
def digitZeros : List Nat :=
  [0x30, 0x660, 0x6f0, 0x7c0, 0x966, 0x9e6, 0xa66, 0xae6, 0xb66, 0xbe6, 0xc66, 0xce6, 0xd66, 0xde6,
    0xe50, 0xed0, 0xf20, 0x1040, 0x1090, 0x17e0, 0x1810, 0x1946, 0x19d0, 0x1a80, 0x1a90, 0x1b50,
    0x1bb0, 0x1c40, 0x1c50, 0xa620, 0xa8d0, 0xa900, 0xa9d0, 0xa9f0, 0xaa50, 0xabf0, 0xff10, 0x104a0,
    0x10d30, 0x11066, 0x110f0, 0x11136, 0x111d0, 0x112f0, 0x11450, 0x114d0, 0x11650, 0x116c0,
    0x11730, 0x118e0, 0x11950, 0x11c50, 0x11d50, 0x11da0, 0x11f50, 0x16a60, 0x16ac0, 0x16b50,
    0x1d7ce, 0x1d7d8, 0x1d7e2, 0x1d7ec, 0x1d7f6, 0x1e140, 0x1e2f0, 0x1e4f0, 0x1e950, 0x1fbf0]

/-- The value of a decimal digit of any script. -/
def decimalDigit (c : Char) : Option Nat :=
  (digitZeros.find? fun z => z ≤ c.toNat && c.toNat < z + 10).map fun z => c.toNat - z

/-- A run of decimal digits in front of the text, and the rest. -/
def takeDecimals : List Char → List Nat × List Char
  | [] => ([], [])
  | c :: cs =>
    match decimalDigit c with
    | some d => let (ds, r) := takeDecimals cs; (d :: ds, r)
    | none => ([], c :: cs)

/-- The number a digit run denotes. -/
def natOfDecimals (ds : List Nat) : Nat := ds.foldl (fun n d => 10 * n + d) 0

/-- An optional sign: whether it is negative, and the rest. -/
def takeSign : List Char → Bool × List Char
  | '+' :: cs => (false, cs)
  | '-' :: cs => (true, cs)
  | cs => (false, cs)

/-- An exponent part that ends the text. -/
def takeExponent : List Char → Option Int
  | [] => some 0
  | c :: cs =>
    if c = 'e' ∨ c = 'E' then
      let (neg, r) := takeSign cs
      match takeDecimals r with
      | (d :: ds, []) =>
        let n : Int := natOfDecimals (d :: ds)
        some (if neg then -n else n)
      | _ => none
    else none

/-- A finite `Decimal`: sign, coefficient and exponent. The special values are not finite. -/
def parseDecimal (cs : List Char) : Option (Bool × Nat × Int) :=
  let (neg, r) := takeSign (cs.filter (· ≠ '_'))
  let (whole, r') := takeDecimals r
  let (frac, r'') := match r' with
    | '.' :: r'' => takeDecimals r''
    | r'' => ([], r'')
  if whole = [] ∧ frac = [] then none
  else (takeExponent r'').map fun e =>
    (neg, natOfDecimals (whole ++ frac), e - (frac.length : Int))

/-- `Decimal` reads a number exactly or not at all: its exponents have bounds. -/
def decimalInRange (coefficient : Nat) (exponent : Int) : Prop :=
  exponent + (Nat.toDigits 10 coefficient).length - 1 ≤ 999999999999999999 ∧
    -1999999999999999997 ≤ exponent

instance (coefficient : Nat) (exponent : Int) : Decidable (decimalInRange coefficient exponent) :=
  inferInstanceAs (Decidable (_ ∧ _))

/-- The precision of the decimal context. -/
def decimalPrecision : Nat := 28

/-- `coefficient * 10 ^ (exponent + 2)` rounded half up, `none` beyond the context's precision. -/
def quantizeCents (coefficient : Nat) (exponent : Int) : Option Nat :=
  let digits := (Nat.toDigits 10 coefficient).length
  if coefficient = 0 then some 0
  else match exponent + 2 with
    | .ofNat k =>
      if digits + k ≤ decimalPrecision then some (coefficient * 10 ^ k) else none
    | .negSucc k =>
      -- a value below a tenth of a cent rounds to zero whatever its digits are
      if digits < k + 1 then some 0
      else
        let scale := 10 ^ (k + 1)
        let cents := (2 * coefficient + scale) / (2 * scale)
        if cents < 10 ^ decimalPrecision then some cents else none

/-- `to_cents`; `none` for `ValueError`. -/
def toCents (value : String) : Option Int := do
  let text := (stripChars value.toList).map fun c => if c = ',' then '.' else c
  let (neg, coefficient, exponent) ← parseDecimal text
  guard (decimalInRange coefficient exponent)
  let cents ← quantizeCents coefficient exponent
  return if neg then -(cents : Int) else cents

example : ["12,50", "12.505", "-1", "1e2", "0x10", "7."].map toCents =
    [some 1250, some 1251, some (-100), some 10000, none, some 700] := by
  decide

/-- `format_cents`. -/
def formatCents (cents : Int) : String :=
  let whole := cents.natAbs / 100
  let frac := cents.natAbs % 100
  (if cents < 0 then "-" else "") ++ String.ofList (Nat.toDigits 10 whole ++ ',' :: pad2 frac)

/-! ## Text -/

/-- `needle in text`. -/
def occursIn (needle text : String) : Bool := decide (needle.toList <:+: text.toList)

/-! ## Currencies and card prices -/

/-- The keys of `CURRENCIES`. -/
def currencies : List String := ["RUB", "UAH", "EUR"]

/-- `DEFAULT_CURRENCY`. -/
def defaultCurrency : String := "RUB"

/-- A price column of a product card. -/
inductive PriceField where
  | cost | sale | minSale
  | costUah | saleUah | minSaleUah
  | costEur | saleEur | minSaleEur
  deriving DecidableEq

/-- The column's name. -/
def PriceField.key : PriceField → String
  | .cost => "cost_cents"
  | .sale => "sale_cents"
  | .minSale => "min_sale_cents"
  | .costUah => "cost_uah_cents"
  | .saleUah => "sale_uah_cents"
  | .minSaleUah => "min_sale_uah_cents"
  | .costEur => "cost_eur_cents"
  | .saleEur => "sale_eur_cents"
  | .minSaleEur => "min_sale_eur_cents"

/-- The price set of one currency. -/
structure PriceSet where
  cost : PriceField
  sale : PriceField
  minSale : PriceField

/-- `card_price_fields`: an unknown or empty currency has the RUB set. -/
def cardPriceFields (currency : String) : PriceSet :=
  if currency = "UAH" then ⟨.costUah, .saleUah, .minSaleUah⟩
  else if currency = "EUR" then ⟨.costEur, .saleEur, .minSaleEur⟩
  else ⟨.cost, .sale, .minSale⟩

/-- `_PRICE_FIELDS` of the catalog service: the three sets, RUB first. -/
def PriceField.all : List PriceField :=
  [.cost, .sale, .minSale, .costUah, .saleUah, .minSaleUah, .costEur, .saleEur, .minSaleEur]

/-- `_clean_currency`: blank is the default, an unknown code an error. -/
def cleanCurrency (upper : String → String) (currency : String) : Option String :=
  let code := upper (strip currency)
  if code = "" then some defaultCurrency
  else if code ∈ currencies then some code else none

/-- `dd.mm.yyyy`, what `format_ru_date` makes of a day. -/
def formatRuDate (d : Date) : String :=
  String.ofList (pad2 d.day ++ '.' :: (pad2 d.month ++ '.' :: pad4 d.year))

/-! ## What a request takes from outside -/

/-- A UUID source: whatever strings are in use, it has an id that is none of them. -/
abbrev IdSource := (used : List String) → { id : String // id ≠ "" ∧ id ∉ used }

/-- A UUID source: a string longer than every string in use. -/
def freshId : IdSource := fun used =>
  ⟨String.ofList (List.replicate ((used.map String.length).sum + 1) 'x'), by
    constructor
    · intro h
      simpa using congrArg String.length h
    · intro h
      have hle := List.single_le_sum (by simp) _ (List.mem_map_of_mem (f := String.length) h)
      simp at hle⟩

/-- The outside of one request. -/
structure Env where
  /-- `settings.device_id`. -/
  deviceId : String
  /-- `settings.operator_name`. -/
  operatorName : String
  /-- The request's user, `(id, display_name)`; `None` outside a request. -/
  user : Option (String × String)
  /-- `allowed_warehouse_ids()`: `none` is unrestricted. -/
  allowed : Option (List String)
  /-- `new_id`. -/
  newId : IdSource
  /-- The moment of the `n`-th clock reading. -/
  clock : Nat → Instant
  /-- The local calendar day of a moment in `settings.display_tz`. -/
  localDay : Instant → Date
  /-- `str.lower`. -/
  lower : String → String
  /-- `str.upper`. -/
  upper : String → String

/-- `author_fields`: the request's user, or the configured operator. -/
def Env.authorFields (env : Env) : Option String × String :=
  match env.user with
  | none => (none, env.operatorName)
  | some (id, displayName) => (some id, displayName)

/-- A request outside of any login, at midnight of one day. -/
def Env.sample : Env where
  deviceId := "device"
  operatorName := "operator"
  user := none
  allowed := none
  newId := freshId
  clock := fun _ => ⟨⟨2026, 1, 1, by decide⟩, 0, 0, 0, by decide⟩
  localDay := Instant.date
  lower := id
  upper := id

/-- `warehouse_allowed`. -/
def Env.warehouseAllowed (env : Env) (warehouseId : String) : Bool :=
  match env.allowed with
  | none => true
  | some ids => decide (warehouseId ∈ ids)

end MyOriShop
