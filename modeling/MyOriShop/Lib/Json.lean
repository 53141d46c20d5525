import Mathlib.Data.List.Basic
import Mathlib.Data.String.Basic
import Mathlib.Tactic.IntervalCases

/-!
# Json: the writer and the reader of the exchange text

`json.dumps(value, ensure_ascii=False)` and `json.loads` of the source language, on character
lists.

* A value is a `Value`. An object keeps its key/value pairs in text order; `lookup` reads a key the
  way the dictionary built from those pairs answers, so the last pair of a key wins.
* A floating point number stays the literal it is written as (`FloatLit`): nothing in the exchange
  computes with one, it is only recognised and refused.
* `dumpChars` is the writer with its default separators `", "` and `": "`. `escapeChar` is its
  escape table for `ensure_ascii=False`: the quote, the backslash and everything below U+0020;
  every other character is written as it is.
* `loads` is the reader, as a scanner (`Scan`, one step per character) that turns the text into
  tokens and a recursive descent over the tokens. Between strings the scanner collects an atom up
  to the next delimiter and then asks `readAtom` what it is. In strict mode a bare control
  character inside a string is an error, as is a lone surrogate escape, which no `String` holds.

Results:
* `loads_dumps`: what the writer wrote is read back as the value it was written from.
* `readChars_prefix_none`: a text cut in front of a non-ASCII character that the writer put inside
  it is never a complete document, so a line split there is refused and not misread.
* `dumpChars_ge`: every character below U+0020 is escaped, so a written text holds none.
* `mem_dumpChars_iff`: a non-ASCII character is in the text exactly when it is in some string.
-/

namespace MyOriShop.Lib.Json

/-! ## Values -/

/-- White space between tokens. -/
def isWs (c : Char) : Bool := c == ' ' || c == '\t' || c == '\n' || c == '\r'

/-- The characters that are a token of their own, and the quote that opens a string. -/
def isPunct (c : Char) : Bool :=
  c == '\x7b' || c == '\x7d' || c == '[' || c == ']' || c == ':' || c == ',' || c == '"'

/-- A character that belongs to an atom: a number or one of the reserved words. -/
def isAtomChar (c : Char) : Bool :=
  !isWs c && !isPunct c && decide (32 < c.toNat ∧ c.toNat < 128)

/-- Digits with no leading zero: the integer part of a number. -/
def natLit (cs : List Char) : Option Nat :=
  if cs = ['0'] then some 0
  else match cs with
    | [] => none
    | c :: _ => if c = '0' then none
        else if cs.all Char.isDigit then some (Nat.ofDigitChars 10 cs 0) else none

/-- An integer literal. -/
def intLit : List Char → Option Int
  | '-' :: cs => (natLit cs).map fun n : Nat => -(n : Int)
  | cs => (natLit cs).map fun n : Nat => (n : Int)

/-- An optional exponent that ends the literal. -/
def isExponent : List Char → Bool
  | [] => true
  | c :: cs =>
    (c == 'e' || c == 'E') &&
      (let ds := match cs with
        | '+' :: r => r
        | '-' :: r => r
        | r => r
       !ds.isEmpty && ds.all Char.isDigit)

/-- A fraction and an exponent, at least one of them present. -/
def isFraction : List Char → Bool
  | '.' :: cs =>
    let (ds, r) := cs.span Char.isDigit
    !ds.isEmpty && isExponent r
  | [] => false
  | cs => isExponent cs

/-- A floating point literal, the three special ones of the reader included. -/
def isFloatLit (cs : List Char) : Bool :=
  let body := match cs with
    | '-' :: r => r
    | r => r
  let (ds, r) := body.span Char.isDigit
  ((natLit ds).isSome && isFraction r) || cs == "NaN".toList || body == "Infinity".toList

/-- An atom that is a floating point number and nothing else. -/
def isFloatAtom (cs : List Char) : Bool :=
  isFloatLit cs && cs.all isAtomChar && (intLit cs).isNone && !cs.isEmpty &&
    cs != "null".toList && cs != "true".toList && cs != "false".toList

/-- A floating point literal, carried as it is written. -/
structure FloatLit where
  chars : List Char
  valid : isFloatAtom chars = true

/-- A JSON value; `obj` keeps its pairs in text order. -/
inductive Value where
  | null
  | bool (b : Bool)
  | int (n : Int)
  | float (lit : FloatLit)
  | str (s : String)
  | arr (items : List Value)
  | obj (pairs : List (String × Value))

/-- The value a dictionary built from `pairs` has at `key`: the last pair wins. -/
def lookup (key : String) (pairs : List (String × Value)) : Option Value :=
  (pairs.reverse.find? fun kv => kv.1 = key).map Prod.snd

/-- `d.get(key)` of a dictionary: absent and null read the same. -/
def valueAt (key : String) (pairs : List (String × Value)) : Value := (lookup key pairs).getD .null

theorem lookup_cons (key k : String) (v : Value) (pairs : List (String × Value)) :
    lookup key ((k, v) :: pairs) = (lookup key pairs).or (if k = key then some v else none) := by
  unfold lookup
  rw [List.reverse_cons, List.find?_append, Option.map_or, List.find?_singleton]
  split_ifs <;> simp_all

theorem lookup_eq_none {key : String} {pairs : List (String × Value)}
    (h : key ∉ pairs.map Prod.fst) : lookup key pairs = none := by
  unfold lookup
  rw [Option.map_eq_none_iff, List.find?_eq_none]
  intro kv hkv hkey
  refine h (List.mem_map.mpr ⟨kv, List.mem_reverse.mp hkv, ?_⟩)
  simpa using hkey

/-- Where the keys are pairwise distinct, a pair of the list is what its key reads. -/
theorem lookup_of_mem {key : String} {v : Value} {pairs : List (String × Value)}
    (hkeys : (pairs.map Prod.fst).Nodup) (h : (key, v) ∈ pairs) : lookup key pairs = some v := by
  induction pairs with
  | nil => simp at h
  | cons kv pairs ih =>
    obtain ⟨hhead, htail⟩ := List.nodup_cons.mp hkeys
    rw [lookup_cons]
    rcases List.mem_cons.mp h with rfl | h
    · rw [lookup_eq_none hhead]
      simp
    · rw [ih htail h]
      rfl

theorem valueAt_of_mem {key : String} {v : Value} {pairs : List (String × Value)}
    (hkeys : (pairs.map Prod.fst).Nodup) (h : (key, v) ∈ pairs) : valueAt key pairs = v := by
  rw [valueAt, lookup_of_mem hkeys h]
  rfl

/-! ## The writer -/

/-- The lower-case hexadecimal digit of `n < 16`. -/
def hexDigit (n : Nat) : Char := Nat.digitChar n

/-- One character of a string literal, `ensure_ascii=False`. -/
def escapeChar (c : Char) : List Char :=
  if c = '"' then ['\\', '"']
  else if c = '\\' then ['\\', '\\']
  else if c = '\n' then ['\\', 'n']
  else if c = '\r' then ['\\', 'r']
  else if c = '\t' then ['\\', 't']
  else if c.toNat = 12 then ['\\', 'f']
  else if c.toNat = 8 then ['\\', 'b']
  else if c.toNat < 32 then
    ['\\', 'u', '0', '0', hexDigit (c.toNat / 16), hexDigit (c.toNat % 16)]
  else [c]

/-- The body of a string literal. -/
def escapeChars (cs : List Char) : List Char := cs.flatMap escapeChar

/-- A string literal. -/
def quote (s : String) : List Char := '"' :: (escapeChars s.toList ++ ['"'])

/-- `str(n)`. -/
def intChars : Int → List Char
  | .ofNat n => Nat.toDigits 10 n
  | .negSucc n => '-' :: Nat.toDigits 10 (n + 1)

mutual
/-- `json.dumps(value, ensure_ascii=False)`. -/
def dumpChars : Value → List Char
  | .null => "null".toList
  | .bool true => "true".toList
  | .bool false => "false".toList
  | .int n => intChars n
  | .float lit => lit.chars
  | .str s => quote s
  | .arr items => '[' :: (dumpItems items ++ [']'])
  | .obj pairs => '\x7b' :: (dumpPairs pairs ++ ['\x7d'])

/-- The items of an array with `", "` between them. -/
def dumpItems : List Value → List Char
  | [] => []
  | [j] => dumpChars j
  | j :: js => dumpChars j ++ ',' :: ' ' :: dumpItems js

/-- The pairs of an object with `": "` and `", "` between them. -/
def dumpPairs : List (String × Value) → List Char
  | [] => []
  | [(k, j)] => quote k ++ ':' :: ' ' :: dumpChars j
  | (k, j) :: kvs => quote k ++ ':' :: ' ' :: (dumpChars j ++ ',' :: ' ' :: dumpPairs kvs)
end

/-- `json.dumps(value, ensure_ascii=False)`. -/
def dumps (j : Value) : String := String.ofList (dumpChars j)

/-! ## The scanner -/

/-- What the reader's grammar is written in. -/
inductive Token where
  | lbrace | rbrace | lbracket | rbracket | colon | comma
  | value (j : Value)
  | str (s : String)

/-- Where the scanner stands. The lists are the characters read so far, latest first. -/
inductive Scan where
  /-- Between strings, inside an atom if the list is not empty. -/
  | plain (atom : List Char)
  /-- Inside a string literal. -/
  | text (acc : List Char)
  /-- After a backslash. -/
  | escape (acc : List Char)
  /-- Inside `\uXXXX`, `left` digits to go; `high` is the surrogate it has to complete. -/
  | unicode (acc : List Char) (high : Option Nat) (left val : Nat)
  /-- After a high surrogate: the backslash of its partner is due. -/
  | paired (acc : List Char) (high : Nat)
  /-- After a high surrogate and a backslash: the `u` is due. -/
  | pairedU (acc : List Char) (high : Nat)

/-- What a complete atom means. -/
def readAtom (cs : List Char) : Option Value :=
  if cs = "null".toList then some .null
  else if cs = "true".toList then some (.bool true)
  else if cs = "false".toList then some (.bool false)
  else match intLit cs with
    | some n => some (.int n)
    | none => if h : isFloatAtom cs = true then some (.float ⟨cs, h⟩) else none

/-- The token of the atom that ends here, if there is one. -/
def flush (atom : List Char) : Option (List Token) :=
  if atom = [] then some [] else (readAtom atom.reverse).map fun j => [.value j]

/-- The token of a structural character. -/
def punct (c : Char) : Option Token :=
  if c = '\x7b' then some .lbrace
  else if c = '\x7d' then some .rbrace
  else if c = '[' then some .lbracket
  else if c = ']' then some .rbracket
  else if c = ':' then some .colon
  else if c = ',' then some .comma
  else none

/-- The value of a hexadecimal digit of either case. -/
def hexVal (c : Char) : Option Nat :=
  let n := c.toNat
  if 48 ≤ n ∧ n ≤ 57 then some (n - 48)
  else if 97 ≤ n ∧ n ≤ 102 then some (n - 87)
  else if 65 ≤ n ∧ n ≤ 70 then some (n - 55)
  else none

/-- A complete `\uXXXX` of value `v`, possibly the second half of a pair. -/
def unicodeDone (acc : List Char) : Option Nat → Nat → Option Scan
  | none, v =>
    if 0xD800 ≤ v ∧ v ≤ 0xDBFF then some (.paired acc v)
    else if 0xDC00 ≤ v ∧ v ≤ 0xDFFF then none
    else some (.text (Char.ofNat v :: acc))
  | some high, v =>
    if 0xDC00 ≤ v ∧ v ≤ 0xDFFF then
      some (.text (Char.ofNat (0x10000 + (high - 0xD800) * 0x400 + (v - 0xDC00)) :: acc))
    else none

/-- The character after a backslash. -/
def unescape (acc : List Char) (c : Char) : Option Scan :=
  if c = '"' then some (.text ('"' :: acc))
  else if c = '\\' then some (.text ('\\' :: acc))
  else if c = '/' then some (.text ('/' :: acc))
  else if c = 'n' then some (.text ('\n' :: acc))
  else if c = 'r' then some (.text ('\r' :: acc))
  else if c = 't' then some (.text ('\t' :: acc))
  else if c = 'f' then some (.text (Char.ofNat 12 :: acc))
  else if c = 'b' then some (.text (Char.ofNat 8 :: acc))
  else if c = 'u' then some (.unicode acc none 4 0)
  else none

/-- One character. -/
def scan : Scan → Char → Option (Scan × List Token)
  | .plain atom, c =>
    if isWs c then (flush atom).map fun ts => (.plain [], ts)
    else if c = '"' then (flush atom).map fun ts => (.text [], ts)
    else match punct c with
      | some t => (flush atom).map fun ts => (.plain [], ts ++ [t])
      | none => some (.plain (c :: atom), [])
  | .text acc, c =>
    if c = '"' then some (.plain [], [.str (String.ofList acc.reverse)])
    else if c = '\\' then some (.escape acc, [])
    else if c.toNat < 32 then none
    else some (.text (c :: acc), [])
  | .escape acc, c => (unescape acc c).map fun st => (st, [])
  | .unicode acc high left v, c => do
    let d ← hexVal c
    if left ≤ 1 then (unicodeDone acc high (16 * v + d)).map fun st => (st, [])
    else some (.unicode acc high (left - 1) (16 * v + d), [])
  | .paired acc high, c => if c = '\\' then some (.pairedU acc high, []) else none
  | .pairedU acc high, c => if c = 'u' then some (.unicode acc (some high) 4 0, []) else none

/-- The scanner over a stretch of text: where it stands after it and what it put out. -/
def advance : Scan → List Char → Option (Scan × List Token)
  | st, [] => some (st, [])
  | st, c :: cs =>
    match scan st c with
    | none => none
    | some (st', ts) => (advance st' cs).map fun (st'', ts') => (st'', ts ++ ts')

/-- The tokens of a whole text, at whose end only an atom may be open. -/
def tokens (cs : List Char) : Option (List Token) :=
  match advance (.plain []) cs with
  | some (.plain atom, ts) => (flush atom).map fun rest => ts ++ rest
  | _ => none

/-! ## The grammar -/

mutual
/-- One value and the tokens after it. -/
def readValue : Nat → List Token → Option (Value × List Token)
  | 0, _ => none
  | n + 1, ts =>
    match ts with
    | .value j :: r => some (j, r)
    | .str s :: r => some (.str s, r)
    | .lbracket :: .rbracket :: r => some (.arr [], r)
    | .lbracket :: r => (readItems n r).map fun (js, r') => (.arr js, r')
    | .lbrace :: .rbrace :: r => some (.obj [], r)
    | .lbrace :: r => (readPairs n r).map fun (kvs, r') => (.obj kvs, r')
    | _ => none

/-- The items of a non-empty array up to its closing bracket. -/
def readItems : Nat → List Token → Option (List Value × List Token)
  | 0, _ => none
  | n + 1, ts =>
    match readValue n ts with
    | some (j, .comma :: r) => (readItems n r).map fun (js, r') => (j :: js, r')
    | some (j, .rbracket :: r) => some ([j], r)
    | _ => none

/-- The pairs of a non-empty object up to its closing brace. -/
def readPairs : Nat → List Token → Option (List (String × Value) × List Token)
  | 0, _ => none
  | n + 1, ts =>
    match ts with
    | .str k :: .colon :: r =>
      match readValue n r with
      | some (j, .comma :: r') => (readPairs n r').map fun (kvs, r'') => ((k, j) :: kvs, r'')
      | some (j, .rbrace :: r') => some ([(k, j)], r')
      | _ => none
    | _ => none
end

/-- A document: one value and nothing after it. -/
def readDoc (ts : List Token) : Option Value :=
  match readValue (ts.length + 1) ts with
  | some (j, []) => some j
  | _ => none

/-- The reader on a character list. -/
def readChars (cs : List Char) : Option Value := (tokens cs).bind readDoc

/-- `json.loads(s)`; `none` for `JSONDecodeError`. -/
def loads (s : String) : Option Value := readChars s.toList

/-! ## Scanning what was written -/

theorem advance_append (st : Scan) (xs ys : List Char) :
    advance st (xs ++ ys) = (advance st xs).bind fun (st', ts) =>
      (advance st' ys).map fun (st'', ts') => (st'', ts ++ ts') := by
  induction xs generalizing st with
  | nil => simp [advance]
  | cons c xs ih =>
    simp only [List.cons_append, advance]
    cases scan st c with
    | none => rfl
    | some p =>
      obtain ⟨st', ts⟩ := p
      simp only [ih]
      cases advance st' xs with
      | none => rfl
      | some q =>
        obtain ⟨st'', ts'⟩ := q
        cases h : advance st'' ys <;> simp [h]

theorem advance_trans {st st' st'' : Scan} {xs ys : List Char} {ts ts' : List Token}
    (h : advance st xs = some (st', ts)) (h' : advance st' ys = some (st'', ts')) :
    advance st (xs ++ ys) = some (st'', ts ++ ts') := by
  rw [advance_append, h]
  simp [h']

theorem advance_cons {st st' st'' : Scan} {c : Char} {cs : List Char} {ts ts' : List Token}
    (h : scan st c = some (st', ts)) (h' : advance st' cs = some (st'', ts')) :
    advance st (c :: cs) = some (st'', ts ++ ts') := by
  simp [advance, h, h']

theorem scan_text {c : Char} (acc : List Char) (hq : c ≠ '"') (hb : c ≠ '\\')
    (h : ¬ c.toNat < 32) : scan (.text acc) c = some (.text (c :: acc), []) := by
  simp [scan, hq, hb, h]

theorem hexVal_hexDigit : ∀ d, d < 16 → hexVal (hexDigit d) = some d := by decide

theorem char_eq_of_toNat {c d : Char} (h : c.toNat = d.toNat) : c = d := Char.toNat_inj.mp h

/-- The escape of a control character is read back as that character. -/
theorem advance_unicode {c : Char} (acc : List Char) (h : c.toNat < 32) :
    advance (.text acc)
        ['\\', 'u', '0', '0', hexDigit (c.toNat / 16), hexDigit (c.toNat % 16)] =
      some (.text (c :: acc), []) := by
  have h1 := hexVal_hexDigit (c.toNat / 16) (by omega)
  have h2 := hexVal_hexDigit (c.toNat % 16) (by omega)
  have h0 : hexVal '0' = some 0 := by decide
  have hv : 16 * (c.toNat / 16) + c.toNat % 16 = c.toNat := Nat.div_add_mod _ _
  have hdone : unicodeDone acc none c.toNat = some (.text (c :: acc)) := by
    simp only [unicodeDone]
    rw [if_neg (by omega), if_neg (by omega), Char.ofNat_toNat]
  simp only [advance, scan, unescape]
  simp [h0, h1, h2, hv, hdone]

theorem advance_escapeChar (acc : List Char) (c : Char) :
    advance (.text acc) (escapeChar c) = some (.text (c :: acc), []) := by
  unfold escapeChar
  split_ifs with h1 h2 h3 h4 h5 h6 h7 h8
  · subst h1; rfl
  · subst h2; rfl
  · subst h3; rfl
  · subst h4; rfl
  · subst h5; rfl
  · have hc : c = Char.ofNat 12 := char_eq_of_toNat h6
    subst hc; rfl
  · have hc : c = Char.ofNat 8 := char_eq_of_toNat h7
    subst hc; rfl
  · exact advance_unicode acc h8
  · simp [advance, scan_text acc h1 h2 h8]

theorem advance_escapeChars (cs acc : List Char) :
    advance (.text acc) (escapeChars cs) = some (.text (cs.reverse ++ acc), []) := by
  induction cs generalizing acc with
  | nil => rfl
  | cons c cs ih =>
    have h := advance_trans (advance_escapeChar acc c) (ih (c :: acc))
    simpa [escapeChars] using h

/-- A string literal between tokens is one token. -/
theorem advance_quote (s : String) : advance (.plain []) (quote s) = some (.plain [], [.str s]) := by
  have hbody := advance_escapeChars s.toList []
  have hclose : advance (.text (s.toList.reverse ++ [])) ['"'] = some (.plain [], [.str s]) := by
    simp [advance, scan, String.ofList_toList]
  have hopen : scan (.plain []) '"' = some (.text [], []) := rfl
  exact advance_cons hopen (advance_trans hbody hclose)

theorem isAtomChar_of_isDigit {c : Char} (h : c.isDigit = true) : isAtomChar c = true := by
  have hn : 48 ≤ c.toNat ∧ c.toNat ≤ 57 := by
    simp only [Char.isDigit, Bool.and_eq_true, decide_eq_true_eq] at h
    exact ⟨h.1, h.2⟩
  obtain ⟨h1, h2⟩ := hn
  rw [← Char.ofNat_toNat c]
  generalize c.toNat = n at h1 h2
  interval_cases n <;> decide

theorem natLit_atom {cs : List Char} {n : Nat} (h : natLit cs = some n) :
    cs.all isAtomChar = true := by
  unfold natLit at h
  split at h
  · next h0 => subst h0; decide
  · split at h
    · cases h
    · split_ifs at h with _ hd
      rw [List.all_eq_true] at hd ⊢
      exact fun c hc => isAtomChar_of_isDigit (hd c hc)

theorem intLit_atom {cs : List Char} {n : Int} (h : intLit cs = some n) :
    cs.all isAtomChar = true := by
  unfold intLit at h
  split at h
  · obtain ⟨m, hm, -⟩ := Option.map_eq_some_iff.mp h
    simp [natLit_atom hm, show isAtomChar '-' = true by decide]
  · obtain ⟨m, hm, -⟩ := Option.map_eq_some_iff.mp h
    exact natLit_atom hm

theorem FloatLit.atom (lit : FloatLit) : lit.chars.all isAtomChar = true := by
  have h := lit.valid
  simp only [isFloatAtom, Bool.and_eq_true] at h
  exact h.1.1.1.1.1.2

theorem readAtom_atom {cs : List Char} {j : Value} (h : readAtom cs = some j) :
    cs.all isAtomChar = true := by
  unfold readAtom at h
  split at h
  · next h1 => subst h1; decide
  split at h
  · next h2 => subst h2; decide
  split at h
  · next h3 => subst h3; decide
  split at h
  · next n hn => exact intLit_atom hn
  split at h
  · next hf => exact FloatLit.atom ⟨cs, hf⟩
  · cases h

theorem flush_atom {atom : List Char} {ts : List Token} (h : flush atom = some ts) :
    ∀ c ∈ atom, isAtomChar c = true := by
  unfold flush at h
  split at h
  · next h0 => simp [h0]
  · obtain ⟨j, hj, -⟩ := Option.map_eq_some_iff.mp h
    have hall := readAtom_atom hj
    rw [List.all_reverse, List.all_eq_true] at hall
    exact hall

theorem scan_atom {c : Char} (atom : List Char) (h : isAtomChar c = true) :
    scan (.plain atom) c = some (.plain (c :: atom), []) := by
  simp only [isAtomChar, isPunct, Bool.and_eq_true, Bool.not_eq_true', Bool.or_eq_false_iff,
    beq_eq_false_iff_ne] at h
  obtain ⟨⟨hw, ⟨⟨⟨⟨⟨⟨h1, h2⟩, h3⟩, h4⟩, h5⟩, h6⟩, h7⟩⟩, -⟩ := h
  simp [scan, hw, h7, punct, h1, h2, h3, h4, h5, h6]

theorem advance_atom {cs : List Char} (h : cs.all isAtomChar = true) (atom : List Char) :
    advance (.plain atom) cs = some (.plain (cs.reverse ++ atom), []) := by
  induction cs generalizing atom with
  | nil => rfl
  | cons c cs ih =>
    simp only [List.all_cons, Bool.and_eq_true] at h
    have hstep := advance_cons (scan_atom atom h.1) (ih h.2 (c :: atom))
    simpa using hstep

/-- From between tokens, the text `xs` is the tokens `out`, the last atom perhaps still open. -/
def Ends (xs : List Char) (out : List Token) : Prop :=
  ∃ atom ts rest, advance (.plain []) xs = some (.plain atom, ts) ∧ flush atom = some rest ∧
    ts ++ rest = out

theorem Ends.tokens {xs : List Char} {out : List Token} (h : Ends xs out) :
    tokens xs = some out := by
  obtain ⟨atom, ts, rest, ha, hf, rfl⟩ := h
  simp [Json.tokens, ha, hf]

/-- A structural character closes the atom in front of it. -/
theorem Ends.punct {xs : List Char} {out : List Token} (h : Ends xs out) {d : Char} {t : Token}
    (hw : isWs d = false) (hq : d ≠ '"') (hd : punct d = some t) :
    advance (.plain []) (xs ++ [d]) = some (.plain [], out ++ [t]) := by
  obtain ⟨atom, ts, rest, ha, hf, rfl⟩ := h
  have hlast : advance (.plain atom) [d] = some (.plain [], rest ++ [t]) := by
    simp [advance, scan, hw, hq, hd, hf]
  simpa using advance_trans ha hlast

theorem Ends.prepend {xs ys : List Char} {ts out : List Token}
    (h : advance (.plain []) xs = some (.plain [], ts)) (h' : Ends ys out) :
    Ends (xs ++ ys) (ts ++ out) := by
  obtain ⟨atom, ts', rest, ha, hf, rfl⟩ := h'
  exact ⟨atom, ts ++ ts', rest, advance_trans h ha, hf, by simp⟩

theorem Ends.of_closed {xs : List Char} {ts : List Token}
    (h : advance (.plain []) xs = some (.plain [], ts)) : Ends xs ts :=
  ⟨[], ts, [], h, rfl, by simp⟩

theorem ends_atom {cs : List Char} {j : Value} (h : readAtom cs = some j) (hne : cs ≠ []) :
    Ends cs [.value j] := by
  refine ⟨cs.reverse, [], [.value j], ?_, ?_, rfl⟩
  · simpa using advance_atom (readAtom_atom h) []
  · simp [flush, hne, h]

/-- The decimal digits of a positive number do not start with a zero. -/
theorem head_toDigits (n : Nat) (hn : 0 < n) : (Nat.toDigits 10 n).head? ≠ some '0' := by
  induction n using Nat.strong_induction_on with
  | h n ih =>
    rcases Nat.lt_or_ge n 10 with hlt | hge
    · rw [Nat.toDigits_of_lt_base hlt]
      simp
      omega
    · rw [Nat.toDigits_of_base_le (by omega) hge, List.head?_append_of_ne_nil _ Nat.toDigits_ne_nil]
      exact ih (n / 10) (by omega) (by omega)

theorem natLit_toDigits (n : Nat) : natLit (Nat.toDigits 10 n) = some n := by
  unfold natLit
  split
  · next h =>
    have hval := congrArg (fun cs => Nat.ofDigitChars 10 cs 0) h
    simp only [Nat.ofDigitChars_ten_toDigits] at hval
    simp [hval, Nat.ofDigitChars]
  · next h0 =>
    have hpos : 0 < n := by
      rcases Nat.eq_zero_or_pos n with rfl | h
      · exact absurd (Nat.toDigits_zero 10) h0
      · exact h
    have hall : (Nat.toDigits 10 n).all Char.isDigit = true := by
      rw [List.all_eq_true]
      exact fun c hc => Nat.isDigit_of_mem_toDigits (by omega) (by omega) hc
    split
    · next h => exact absurd h Nat.toDigits_ne_nil
    · next c cs h =>
      have hc : c ≠ '0' := by
        rintro rfl
        exact head_toDigits n hpos (by rw [h]; rfl)
      rw [if_neg hc, if_pos hall, Nat.ofDigitChars_ten_toDigits]

theorem intLit_intChars (n : Int) : intLit (intChars n) = some n := by
  cases n with
  | ofNat n =>
    unfold intLit intChars
    split
    · next cs h =>
      have hmem : '-' ∈ Nat.toDigits 10 n := by
        change Nat.toDigits 10 n = '-' :: cs at h
        simp [h]
      exact absurd (Nat.isDigit_of_mem_toDigits (by omega) (by omega) hmem) (by decide)
    · simp [natLit_toDigits]
  | negSucc n =>
    simp only [intChars, intLit, natLit_toDigits, Option.map_some]
    rfl

theorem intChars_ne_nil (n : Int) : intChars n ≠ [] := by
  cases n <;> simp [intChars, Nat.toDigits_ne_nil]

theorem readAtom_intChars (n : Int) : readAtom (intChars n) = some (.int n) := by
  have hlit := intLit_intChars n
  unfold readAtom
  rw [if_neg, if_neg, if_neg, hlit]
  all_goals
    intro h
    rw [h] at hlit
    revert hlit
    simp [intLit, natLit]

theorem readAtom_float (lit : FloatLit) : readAtom lit.chars = some (.float lit) := by
  have h := lit.valid
  simp only [isFloatAtom, Bool.and_eq_true, bne_iff_ne, Option.isNone_iff_eq_none] at h
  obtain ⟨⟨⟨⟨⟨⟨_, _⟩, hint⟩, _⟩, h1⟩, h2⟩, h3⟩ := h
  unfold readAtom
  rw [if_neg h1, if_neg h2, if_neg h3, hint]
  simp [lit.valid]

theorem FloatLit.ne_nil (lit : FloatLit) : lit.chars ≠ [] := by
  have h := lit.valid
  simp only [isFloatAtom, Bool.and_eq_true, Bool.not_eq_true', List.isEmpty_eq_false_iff] at h
  exact h.1.1.1.2

/-! ## The tokens of a value -/

mutual
/-- The tokens of a written value. -/
def toks : Value → List Token
  | .str s => [.str s]
  | .arr items => .lbracket :: (toksItems items ++ [.rbracket])
  | .obj pairs => .lbrace :: (toksPairs pairs ++ [.rbrace])
  | j => [.value j]

/-- The tokens of array items. -/
def toksItems : List Value → List Token
  | [] => []
  | [j] => toks j
  | j :: js => toks j ++ .comma :: toksItems js

/-- The tokens of object pairs. -/
def toksPairs : List (String × Value) → List Token
  | [] => []
  | [(k, j)] => .str k :: .colon :: toks j
  | (k, j) :: kvs => .str k :: .colon :: (toks j ++ .comma :: toksPairs kvs)
end

theorem advance_space : advance (.plain []) [' '] = some (.plain [], []) := rfl

/-- A key with its colon. -/
theorem advance_key (k : String) :
    advance (.plain []) (quote k ++ [':', ' ']) = some (.plain [], [.str k, .colon]) :=
  advance_trans (advance_quote k) rfl

mutual
theorem ends_dump : ∀ j : Value, Ends (dumpChars j) (toks j)
  | .null => ends_atom (if_pos rfl) (by simp [dumpChars])
  | .bool true => ends_atom rfl (by simp [dumpChars])
  | .bool false => ends_atom rfl (by simp [dumpChars])
  | .int n => ends_atom (readAtom_intChars n) (intChars_ne_nil n)
  | .float lit => ends_atom (readAtom_float lit) lit.ne_nil
  | .str s => Ends.of_closed (advance_quote s)
  | .arr items => by
    have hopen : advance (.plain []) ['['] = some (.plain [], [.lbracket]) := rfl
    have hbody := (Ends.prepend hopen (ends_items items)).punct (d := ']') rfl (by decide) rfl
    simpa [dumpChars, toks] using Ends.of_closed hbody
  | .obj pairs => by
    have hopen : advance (.plain []) ['\x7b'] = some (.plain [], [.lbrace]) := rfl
    have hbody := (Ends.prepend hopen (ends_pairs pairs)).punct (d := '\x7d') rfl (by decide) rfl
    simpa [dumpChars, toks] using Ends.of_closed hbody

theorem ends_items : ∀ js : List Value, Ends (dumpItems js) (toksItems js)
  | [] => Ends.of_closed rfl
  | [j] => ends_dump j
  | j :: j' :: js => by
    have hcomma := (ends_dump j).punct (d := ',') rfl (by decide) rfl
    have hrest := Ends.prepend (advance_trans hcomma advance_space) (ends_items (j' :: js))
    simpa [dumpItems, toksItems] using hrest

theorem ends_pairs : ∀ kvs : List (String × Value), Ends (dumpPairs kvs) (toksPairs kvs)
  | [] => Ends.of_closed rfl
  | [(k, j)] => by
    simpa [dumpPairs, toksPairs] using Ends.prepend (advance_key k) (ends_dump j)
  | (k, j) :: kv :: kvs => by
    have hcomma := (Ends.prepend (advance_key k) (ends_dump j)).punct (d := ',') rfl (by decide) rfl
    have hrest := Ends.prepend (advance_trans hcomma advance_space) (ends_pairs (kv :: kvs))
    simpa [dumpPairs, toksPairs] using hrest
end

/-! ## Reading the tokens back -/

theorem toks_ne_nil : ∀ j : Value, toks j ≠ []
  | .null | .bool _ | .int _ | .float _ | .str _ => by simp [toks]
  | .arr _ | .obj _ => by simp [toks]

theorem toks_head (j : Value) (r : List Token) : ∀ r', toks j ++ r ≠ .rbracket :: r' := by
  cases j <;> simp [toks]

theorem toksItems_head (js : List Value) (hne : js ≠ []) (r : List Token) :
    ∀ r', toksItems js ++ r ≠ .rbracket :: r' := by
  match js, hne with
  | [j], _ => simpa [toksItems] using toks_head j r
  | j :: j' :: js, _ => simpa [toksItems] using toks_head j (.comma :: (toksItems (j' :: js) ++ r))

theorem toksPairs_head (kvs : List (String × Value)) (hne : kvs ≠ []) (r : List Token) :
    ∀ r', toksPairs kvs ++ r ≠ .rbrace :: r' := by
  match kvs, hne with
  | [kv], _ => simp [toksPairs]
  | kv :: kv' :: kvs, _ => simp [toksPairs]

mutual
theorem readValue_toks : ∀ (j : Value) (n : Nat) (r : List Token), (toks j).length ≤ n →
    readValue n (toks j ++ r) = some (j, r)
  | .null, n + 1, r, _ | .bool _, n + 1, r, _ | .int _, n + 1, r, _ | .float _, n + 1, r, _
  | .str _, n + 1, r, _ => by simp [toks, readValue]
  | .arr [], n + 1, r, _ => by simp [toks, toksItems, readValue]
  | .arr (j :: js), n + 1, r, h => by
    have hitems := readItems_toks (j :: js) (by simp) n r (by simpa [toks] using h)
    have hhead := toksItems_head (j :: js) (by simp) (.rbracket :: r)
    simp only [toks, List.cons_append, List.append_assoc,
      List.nil_append] at hitems ⊢
    rw [readValue]
    · simp [hitems]
    · simpa using hhead
  | .obj [], n + 1, r, _ => by simp [toks, toksPairs, readValue]
  | .obj (kv :: kvs), n + 1, r, h => by
    have hpairs := readPairs_toks (kv :: kvs) (by simp) n r (by simpa [toks] using h)
    have hhead := toksPairs_head (kv :: kvs) (by simp) (.rbrace :: r)
    simp only [toks, List.cons_append, List.append_assoc,
      List.nil_append] at hpairs ⊢
    rw [readValue]
    · simp [hpairs]
    · simpa using hhead
  | j, 0, _, h => absurd (List.length_eq_zero_iff.mp (Nat.le_zero.mp h)) (toks_ne_nil j)

theorem readItems_toks : ∀ (js : List Value), js ≠ [] → ∀ (n : Nat) (r : List Token),
    (toksItems js).length + 1 ≤ n → readItems n (toksItems js ++ .rbracket :: r) = some (js, r)
  | [j], _, n + 1, r, h => by
    have hj := readValue_toks j n (.rbracket :: r) (by simpa [toksItems] using h)
    simp [toksItems, readItems, hj]
  | j :: j' :: js, _, n + 1, r, h => by
    have hlen : (toks j).length + ((toksItems (j' :: js)).length + 1) ≤ n := by
      simp only [toksItems, List.length_append, List.length_cons] at h
      omega
    have hj := readValue_toks j n (.comma :: (toksItems (j' :: js) ++ .rbracket :: r)) (by omega)
    have hjs := readItems_toks (j' :: js) (by simp) n r (by omega)
    simp [toksItems, readItems, hj, hjs]

theorem readPairs_toks : ∀ (kvs : List (String × Value)), kvs ≠ [] → ∀ (n : Nat) (r : List Token),
    (toksPairs kvs).length + 1 ≤ n → readPairs n (toksPairs kvs ++ .rbrace :: r) = some (kvs, r)
  | [(k, j)], _, n + 1, r, h => by
    have hj := readValue_toks j n (.rbrace :: r) (by simp [toksPairs] at h; omega)
    simp [toksPairs, readPairs, hj]
  | (k, j) :: kv :: kvs, _, n + 1, r, h => by
    have hlen : (toks j).length + ((toksPairs (kv :: kvs)).length + 1) ≤ n := by
      simp only [toksPairs, List.length_append, List.length_cons] at h
      omega
    have hj := readValue_toks j n (.comma :: (toksPairs (kv :: kvs) ++ .rbrace :: r)) (by omega)
    have hkvs := readPairs_toks (kv :: kvs) (by simp) n r (by omega)
    simp [toksPairs, readPairs, hj, hkvs]
end

/-- **Round trip of the text**: reading what was written gives back the value. -/
theorem loads_dumps (j : Value) : loads (dumps j) = some j := by
  have hread := readValue_toks j ((toks j).length + 1) [] (by omega)
  rw [List.append_nil] at hread
  simp [loads, dumps, readChars, (ends_dump j).tokens, readDoc, hread]

/-! ## Cutting a text -/

theorem flush_none {atom : List Char} {c : Char} (hc : c ∈ atom) (h : isAtomChar c = false) :
    flush atom = none := by
  cases hf : flush atom with
  | none => rfl
  | some ts => simp [flush_atom hf c hc] at h

/-- A character that fits in no atom stays in the open atom, which then never ends. -/
theorem advance_stuck {c : Char} (h : ∀ atom : List Char, c ∈ atom → flush atom = none)
    {atom : List Char} (hc : c ∈ atom) :
    ∀ {cs : List Char} {st : Scan} {ts : List Token}, advance (.plain atom) cs = some (st, ts) →
      ∃ atom', st = .plain atom' ∧ c ∈ atom' := by
  intro cs
  induction cs generalizing atom with
  | nil =>
    intro st ts hst
    simp only [advance, Option.some.injEq, Prod.mk.injEq] at hst
    exact ⟨atom, hst.1.symm, hc⟩
  | cons d cs ih =>
    intro st ts hst
    simp only [advance, scan, h atom hc, Option.map_none] at hst
    split_ifs at hst
    cases hp : Json.punct d with
    | some t => simp [hp] at hst
    | none =>
      simp only [hp] at hst
      obtain ⟨⟨st', ts'⟩, hadv, heq⟩ := Option.map_eq_some_iff.mp hst
      obtain ⟨rfl, -⟩ := Prod.mk.injEq .. ▸ heq
      exact ih (List.mem_cons_of_mem d hc) hadv

theorem isAtomChar_of_ge {c : Char} (h : 128 ≤ c.toNat) : isAtomChar c = false := by
  simp only [isAtomChar, Bool.and_eq_false_iff, decide_eq_false_iff_not]
  exact .inr (by omega)

theorem scan_of_ge {c : Char} (h : 128 ≤ c.toNat) (atom : List Char) :
    scan (.plain atom) c = some (.plain (c :: atom), []) := by
  have hne : ∀ d : Char, d.toNat < 128 → c ≠ d := by
    rintro d hd rfl
    omega
  simp [scan, isWs, Json.punct, hne ' ' (by decide), hne '\t' (by decide), hne '\n' (by decide),
    hne '\r' (by decide), hne '"' (by decide), hne '\x7b' (by decide), hne '\x7d' (by decide),
    hne '[' (by decide), hne ']' (by decide), hne ':' (by decide), hne ',' (by decide)]

/-- **A cut text is refused**: what stands in front of a non-ASCII character of a written value
is not a document. -/
theorem readChars_prefix_none {j : Value} {p q : List Char} {c : Char}
    (h : dumpChars j = p ++ c :: q) (hc : 128 ≤ c.toNat) : readChars p = none := by
  obtain ⟨last, ts, rest, hadv, hflush, -⟩ := ends_dump j
  rw [h, advance_append] at hadv
  cases hp : advance (.plain []) p with
  | none => simp [readChars, tokens, hp]
  | some s =>
    obtain ⟨st, ts'⟩ := s
    cases st with
    | plain atom =>
      -- the reader would take `c` into the open atom and never finish it
      exfalso
      obtain ⟨⟨st', ts''⟩, hrest, heq⟩ :
          ∃ r, advance (.plain atom) (c :: q) = some r ∧ r.1 = .plain last := by
        rw [hp, Option.bind_some] at hadv
        obtain ⟨r, hr, heq⟩ := Option.map_eq_some_iff.mp hadv
        exact ⟨r, hr, by simpa using congrArg Prod.fst heq⟩
      simp only at heq
      subst heq
      simp only [advance, scan_of_ge hc] at hrest
      obtain ⟨⟨st', ts3⟩, hq, heq⟩ := Option.map_eq_some_iff.mp hrest
      obtain ⟨rfl, -⟩ := Prod.mk.injEq .. ▸ heq
      obtain ⟨atom', hst, hmem⟩ :=
        advance_stuck (fun _ h => flush_none h (isAtomChar_of_ge hc)) List.mem_cons_self hq
      injection hst with hst
      subst hst
      simp [flush_none hmem (isAtomChar_of_ge hc)] at hflush
    | _ => simp [readChars, tokens, hp]

/-! ## The characters of a written value -/

mutual
/-- Every character of a string inside the value, keys included. -/
def textChars : Value → List Char
  | .str s => s.toList
  | .arr items => textItems items
  | .obj pairs => textPairs pairs
  | _ => []

/-- The string characters of array items. -/
def textItems : List Value → List Char
  | [] => []
  | j :: js => textChars j ++ textItems js

/-- The string characters of object pairs. -/
def textPairs : List (String × Value) → List Char
  | [] => []
  | (k, j) :: kvs => k.toList ++ textChars j ++ textPairs kvs
end

/-- The range of the ASCII characters that are not control characters. -/
def Visible (c : Char) : Prop := 32 ≤ c.toNat ∧ c.toNat < 128

instance (c : Char) : Decidable (Visible c) := inferInstanceAs (Decidable (_ ∧ _))

theorem visible_hexDigit : ∀ d, d < 16 → Visible (hexDigit d) := by decide

/-- An escape is the character itself or visible ASCII for an ASCII character. -/
theorem escapeChar_cases (d : Char) :
    (escapeChar d = [d] ∧ 32 ≤ d.toNat) ∨
      (d.toNat < 128 ∧ ∀ c ∈ escapeChar d, Visible c) := by
  -- the two-character escapes: a backslash and a visible letter
  have two : ∀ c, Visible c → ∀ x ∈ ['\\', c], Visible x := by
    intro c hc x hx
    rw [List.mem_cons, List.mem_singleton] at hx
    obtain rfl | rfl := hx
    · decide
    · exact hc
  unfold escapeChar
  split_ifs with h1 h2 h3 h4 h5 h6 h7 h8
  · subst h1; exact .inr ⟨by decide, two _ (by decide)⟩
  · subst h2; exact .inr ⟨by decide, two _ (by decide)⟩
  · subst h3; exact .inr ⟨by decide, two _ (by decide)⟩
  · subst h4; exact .inr ⟨by decide, two _ (by decide)⟩
  · subst h5; exact .inr ⟨by decide, two _ (by decide)⟩
  · exact .inr ⟨by omega, two _ (by decide)⟩
  · exact .inr ⟨by omega, two _ (by decide)⟩
  · refine .inr ⟨by omega, ?_⟩
    have hhi := visible_hexDigit (d.toNat / 16) (by omega)
    have hlo := visible_hexDigit (d.toNat % 16) (by omega)
    simp only [List.forall_mem_cons, List.not_mem_nil, false_implies, implies_true, and_true]
    exact ⟨by decide, by decide, by decide, by decide, hhi, hlo⟩
  · exact .inl ⟨rfl, by omega⟩

/-- A character may stand in the written text of a value with string characters `text`. -/
def MayStand (c : Char) (text : List Char) : Prop := Visible c ∨ (32 ≤ c.toNat ∧ c ∈ text)

theorem MayStand.mono {c : Char} {text text' : List Char} (h : MayStand c text)
    (hsub : ∀ d ∈ text, d ∈ text') : MayStand c text' :=
  h.imp_right fun ⟨h1, h2⟩ => ⟨h1, hsub c h2⟩

theorem mayStand_escapeChars {c : Char} {cs : List Char} (h : c ∈ escapeChars cs) :
    MayStand c cs := by
  obtain ⟨d, hd, hc⟩ := List.mem_flatMap.mp h
  rcases escapeChar_cases d with ⟨he, hge⟩ | ⟨-, hvis⟩
  · rw [he, List.mem_singleton] at hc
    subst hc
    exact .inr ⟨hge, hd⟩
  · exact .inl (hvis c hc)

theorem mayStand_quote {c : Char} {s : String} (h : c ∈ quote s) : MayStand c s.toList := by
  simp only [quote, List.mem_cons, List.mem_append, List.not_mem_nil, or_false] at h
  rcases h with rfl | h | rfl
  · exact .inl (by decide)
  · exact mayStand_escapeChars h
  · exact .inl (by decide)

theorem visible_of_isAtomChar {c : Char} (h : isAtomChar c = true) : Visible c := by
  simp only [isAtomChar, Bool.and_eq_true, decide_eq_true_eq] at h
  exact ⟨by omega, by omega⟩

theorem mayStand_atom (cs : List Char) {text : List Char} (h : cs.all isAtomChar = true) {c : Char}
    (hc : c ∈ cs) : MayStand c text :=
  .inl (visible_of_isAtomChar (List.all_eq_true.mp h c hc))

mutual
theorem mayStand_dump : ∀ (j : Value) (c : Char), c ∈ dumpChars j → MayStand c (textChars j)
  | .null, c, h => mayStand_atom "null".toList (by decide) h
  | .bool true, c, h => mayStand_atom "true".toList (by decide) h
  | .bool false, c, h => mayStand_atom "false".toList (by decide) h
  | .int n, c, h => mayStand_atom _ (readAtom_atom (readAtom_intChars n)) h
  | .float lit, c, h => mayStand_atom _ lit.atom h
  | .str s, c, h => mayStand_quote h
  | .arr items, c, h => by
    simp only [dumpChars, List.mem_cons, List.mem_append, List.not_mem_nil, or_false] at h
    rcases h with rfl | h | rfl
    · exact .inl (by decide)
    · exact mayStand_items items c h
    · exact .inl (by decide)
  | .obj pairs, c, h => by
    simp only [dumpChars, List.mem_cons, List.mem_append, List.not_mem_nil, or_false] at h
    rcases h with rfl | h | rfl
    · exact .inl (by decide)
    · exact mayStand_pairs pairs c h
    · exact .inl (by decide)

theorem mayStand_items : ∀ (js : List Value) (c : Char), c ∈ dumpItems js →
    MayStand c (textItems js)
  | [], c, h => by simp [dumpItems] at h
  | [j], c, h => (mayStand_dump j c h).mono (by simp [textItems])
  | j :: j' :: js, c, h => by
    simp only [dumpItems, List.mem_append, List.mem_cons] at h
    rcases h with h | rfl | rfl | h
    · exact (mayStand_dump j c h).mono fun d hd => by simp [textItems, hd]
    · exact .inl (by decide)
    · exact .inl (by decide)
    · exact (mayStand_items (j' :: js) c h).mono fun d hd => by
        rw [textItems]
        exact List.mem_append_right _ hd

theorem mayStand_pairs : ∀ (kvs : List (String × Value)) (c : Char), c ∈ dumpPairs kvs →
    MayStand c (textPairs kvs)
  | [], c, h => by simp [dumpPairs] at h
  | [(k, j)], c, h => by
    simp only [dumpPairs, List.mem_append, List.mem_cons] at h
    rcases h with h | rfl | rfl | h
    · exact (mayStand_quote h).mono fun d hd => by simp [textPairs, hd]
    · exact .inl (by decide)
    · exact .inl (by decide)
    · exact (mayStand_dump j c h).mono fun d hd => by simp [textPairs, hd]
  | (k, j) :: kv :: kvs, c, h => by
    simp only [dumpPairs, List.mem_append, List.mem_cons] at h
    rcases h with h | rfl | rfl | h | rfl | rfl | h
    · exact (mayStand_quote h).mono fun d hd => by simp [textPairs, hd]
    · exact .inl (by decide)
    · exact .inl (by decide)
    · exact (mayStand_dump j c h).mono fun d hd => by simp [textPairs, hd]
    · exact .inl (by decide)
    · exact .inl (by decide)
    · exact (mayStand_pairs (kv :: kvs) c h).mono fun d hd => by
        rw [textPairs]
        exact List.mem_append_right _ hd
end

/-- No control character stands in a written text. -/
theorem dumpChars_ge {j : Value} {c : Char} (h : c ∈ dumpChars j) : 32 ≤ c.toNat :=
  (mayStand_dump j c h).elim (fun h => h.1) fun h => h.1

theorem mem_escapeChars_of_ge {c : Char} {cs : List Char} (hc : 128 ≤ c.toNat) (h : c ∈ cs) :
    c ∈ escapeChars cs := by
  refine List.mem_flatMap.mpr ⟨c, h, ?_⟩
  rcases escapeChar_cases c with ⟨he, -⟩ | ⟨hlt, -⟩
  · simp [he]
  · omega

theorem mem_quote_of_ge {c : Char} {s : String} (hc : 128 ≤ c.toNat) (h : c ∈ s.toList) :
    c ∈ quote s := by
  simp [quote, mem_escapeChars_of_ge hc h]

mutual
theorem mem_dump_of_ge : ∀ (j : Value) (c : Char), 128 ≤ c.toNat → c ∈ textChars j →
    c ∈ dumpChars j
  | .null, _, _, h | .bool _, _, _, h | .int _, _, _, h | .float _, _, _, h => by
    simp [textChars] at h
  | .str s, c, hc, h => mem_quote_of_ge hc h
  | .arr items, c, hc, h => by simp [dumpChars, mem_items_of_ge items c hc h]
  | .obj pairs, c, hc, h => by simp [dumpChars, mem_pairs_of_ge pairs c hc h]

theorem mem_items_of_ge : ∀ (js : List Value) (c : Char), 128 ≤ c.toNat → c ∈ textItems js →
    c ∈ dumpItems js
  | [], _, _, h => by simp [textItems] at h
  | [j], c, hc, h => by
    simp only [textItems, List.append_nil] at h
    exact mem_dump_of_ge j c hc h
  | j :: j' :: js, c, hc, h => by
    rw [textItems, List.mem_append] at h
    rcases h with h | h
    · simp [dumpItems, mem_dump_of_ge j c hc h]
    · simp [dumpItems, mem_items_of_ge (j' :: js) c hc h]

theorem mem_pairs_of_ge : ∀ (kvs : List (String × Value)) (c : Char), 128 ≤ c.toNat →
    c ∈ textPairs kvs → c ∈ dumpPairs kvs
  | [], _, _, h => by simp [textPairs] at h
  | [(k, j)], c, hc, h => by
    simp only [textPairs, List.append_nil, List.mem_append] at h
    rcases h with h | h
    · simp [dumpPairs, mem_quote_of_ge hc h]
    · simp [dumpPairs, mem_dump_of_ge j c hc h]
  | (k, j) :: kv :: kvs, c, hc, h => by
    rw [textPairs, List.mem_append, List.mem_append] at h
    rcases h with (h | h) | h
    · simp [dumpPairs, mem_quote_of_ge hc h]
    · simp [dumpPairs, mem_dump_of_ge j c hc h]
    · simp [dumpPairs, mem_pairs_of_ge (kv :: kvs) c hc h]
end

/-- A non-ASCII character is written exactly when some string of the value has it. -/
theorem mem_dumpChars_iff {j : Value} {c : Char} (hc : 128 ≤ c.toNat) :
    c ∈ dumpChars j ↔ c ∈ textChars j := by
  refine ⟨fun h => ?_, mem_dump_of_ge j c hc⟩
  rcases mayStand_dump j c h with hvis | ⟨-, hmem⟩
  · exact absurd hvis.2 (by omega)
  · exact hmem

example : (loads "\x7b\"a\": [1, -20, null], \"b\": \"x\\n\\u00e9\"\x7d").map dumps =
    some "\x7b\"a\": [1, -20, null], \"b\": \"x\\né\"\x7d" := by
  decide +kernel

end MyOriShop.Lib.Json
