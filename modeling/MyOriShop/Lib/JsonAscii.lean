import MyOriShop.Lib.JsonText

/-!
# JsonAscii: the writer that escapes everything outside ASCII

`json.dumps` without `ensure_ascii=False` writes each character above `~` as `\uXXXX`, one beyond
the basic plane as a surrogate pair. Such a character stands inside a string literal only, so the
text is that of `dumps` with these characters replaced.

Results:
* `advance_unicodeEscapes`: the escape is read back as its character.
* `advance_asciiChars`: where the scanner gets through a text, it gets through the escaped text to
  the same place with the same tokens.
* `loads_asciiDumps`: reading what was written gives back the value.
-/

namespace MyOriShop.Lib.Json

/-- Four hexadecimal digits. -/
def hex4 (v : Nat) : List Char :=
  [hexDigit (v / 4096 % 16), hexDigit (v / 256 % 16), hexDigit (v / 16 % 16), hexDigit (v % 16)]

/-- `\uXXXX`, or two of them for a character beyond the basic plane. -/
def unicodeEscapes (c : Char) : List Char :=
  if c.toNat < 0x10000 then '\\' :: 'u' :: hex4 c.toNat
  else '\\' :: 'u' :: (hex4 (0xD800 + (c.toNat - 0x10000) / 0x400) ++
    '\\' :: 'u' :: hex4 (0xDC00 + (c.toNat - 0x10000) % 0x400))

/-- A written text with everything above `~` escaped. -/
def asciiChars (cs : List Char) : List Char :=
  cs.flatMap fun c => if 127 ≤ c.toNat then unicodeEscapes c else [c]

/-- `json.dumps(value)`. -/
def asciiDumps (j : Value) : String := String.ofList (asciiChars (dumpChars j))

/-! ## Reading an escape -/

/-- A character that puts out no token. -/
theorem advance_silent {st st' : Scan} {c : Char} (h : scan st c = some (st', []))
    (cs : List Char) : advance st (c :: cs) = advance st' cs := by
  simp [advance, h]

theorem scan_digit (acc : List Char) (high : Option Nat) (left v n : Nat) :
    scan (.unicode acc high (left + 2) v) (hexDigit (n % 16)) =
      some (.unicode acc high (left + 1) (16 * v + n % 16), []) := by
  simp [scan, hexVal_hexDigit (n % 16) (Nat.mod_lt n (by decide))]

theorem scan_last (acc : List Char) (high : Option Nat) (v n : Nat) :
    scan (.unicode acc high 1 v) (hexDigit (n % 16)) =
      (unicodeDone acc high (16 * v + n % 16)).map fun st => (st, []) := by
  simp [scan, hexVal_hexDigit (n % 16) (Nat.mod_lt n (by decide))]

/-- Four digits, of which the last completes the escape. -/
theorem advance_hex4 {v : Nat} (hv : v < 0x10000) {acc : List Char} {high : Option Nat} {st : Scan}
    (hdone : unicodeDone acc high v = some st) (cs : List Char) :
    advance (.unicode acc high 4 0) (hex4 v ++ cs) = advance st cs := by
  have hsum : 16 * (16 * (16 * (16 * 0 + v / 4096 % 16) + v / 256 % 16) + v / 16 % 16) + v % 16 =
      v := by omega
  simp only [hex4, List.cons_append, List.nil_append]
  rw [advance_silent (scan_digit ..), advance_silent (scan_digit ..),
    advance_silent (scan_digit ..), advance_silent]
  rw [scan_last, hsum, hdone, Option.map_some]

theorem scan_backslash (acc : List Char) : scan (.text acc) '\\' = some (.escape acc, []) := rfl

theorem scan_u (acc : List Char) : scan (.escape acc) 'u' = some (.unicode acc none 4 0, []) := rfl

theorem lt_of_valid (c : Char) :
    c.toNat < 0xD800 ∨ (0xDFFF < c.toNat ∧ c.toNat < 0x110000) := c.valid

theorem advance_unicodeEscapes (acc : List Char) (c : Char) :
    advance (.text acc) (unicodeEscapes c) = some (.text (c :: acc), []) := by
  have hvalid := lt_of_valid c
  unfold unicodeEscapes
  split_ifs with hbasic
  · have hdone : unicodeDone acc none c.toNat = some (.text (c :: acc)) := by
      simp only [unicodeDone]
      rw [if_neg (by omega), if_neg (by omega), Char.ofNat_toNat]
    rw [advance_silent (scan_backslash acc), advance_silent (scan_u acc),
      ← List.append_nil (hex4 c.toNat), advance_hex4 hbasic hdone, advance]
  · -- a surrogate pair, put together again from its halves
    have hhigh : unicodeDone acc none (0xD800 + (c.toNat - 0x10000) / 0x400) =
        some (.paired acc (0xD800 + (c.toNat - 0x10000) / 0x400)) := by
      simp only [unicodeDone]
      rw [if_pos (by omega)]
    have hsum : 0x10000 + (0xD800 + (c.toNat - 0x10000) / 0x400 - 0xD800) * 0x400 +
        (0xDC00 + (c.toNat - 0x10000) % 0x400 - 0xDC00) = c.toNat := by omega
    have hlow : unicodeDone acc (some (0xD800 + (c.toNat - 0x10000) / 0x400))
        (0xDC00 + (c.toNat - 0x10000) % 0x400) = some (.text (c :: acc)) := by
      simp only [unicodeDone]
      rw [if_pos (by omega), hsum, Char.ofNat_toNat]
    rw [advance_silent (scan_backslash acc), advance_silent (scan_u acc),
      advance_hex4 (by omega) hhigh, advance_silent rfl, advance_silent rfl,
      ← List.append_nil (hex4 _), advance_hex4 (by omega) hlow, advance]

/-! ## Reading a written text -/

/-- An atom with a character above `~` is none. -/
theorem flush_above {c : Char} (hc : 127 ≤ c.toNat) (atom : List Char) (hmem : c ∈ atom) :
    flush atom = none := by
  have hne : atom ≠ [] := List.ne_nil_of_mem hmem
  have hframe : isFrame c = false := by
    have hdigit : c.isDigit = false := by
      rw [Bool.eq_false_iff]
      intro h
      have hle := (Char.isDigit_iff_toNat.mp h).2
      exact absurd (hc.trans hle) (by decide)
    have hfew : "\x7b\x7d[]:, \"\\+-.abcdefnrtulsEINityx\n".toList.all (·.toNat < 127) = true := by
      decide
    rw [isFrame, hdigit, Bool.false_or, ← Bool.not_eq_true, List.contains_iff_mem]
    intro h
    have := of_decide_eq_true (List.all_eq_true.mp hfew c h)
    omega
  rw [flush, if_neg hne, Option.map_eq_none_iff]
  cases hatom : readAtom atom.reverse with
  | none => rfl
  | some j =>
    have := isFrame_readAtom hatom c (List.mem_reverse.mpr hmem)
    rw [hframe] at this
    cases this

/-- Through a character above `~` the scanner gets inside a string literal, or into an atom that
will not end. -/
theorem scan_above {st st' : Scan} {c : Char} {ts : List Token} (hc : 127 ≤ c.toNat)
    (h : scan st c = some (st', ts)) :
    (∃ acc, st = .text acc ∧ st' = .text (c :: acc) ∧ ts = []) ∨
      ∃ atom, st' = .plain (c :: atom) := by
  have hne (d : Char) (hd : d.toNat < 127) : c ≠ d := by
    rintro rfl
    omega
  cases st with
  | plain atom =>
    refine .inr ⟨atom, ?_⟩
    have hws : isWs c = false := by
      simp [isWs, hne ' ' (by decide), hne '\t' (by decide), hne '\n' (by decide),
        hne '\r' (by decide)]
    have hpunct : punct c = none := by
      simp [punct, hne '\x7b' (by decide), hne '\x7d' (by decide), hne '[' (by decide),
        hne ']' (by decide), hne ':' (by decide), hne ',' (by decide)]
    simp [scan, hws, hne '"' (by decide), hpunct] at h
    exact h.1.symm
  | text acc =>
    rw [scan_text acc (hne '"' (by decide)) (hne '\\' (by decide)) (by omega)] at h
    cases h
    exact .inl ⟨acc, rfl, rfl, rfl⟩
  | escape acc =>
    simp [scan, unescape, hne '"' (by decide), hne '\\' (by decide), hne '/' (by decide),
      hne 'n' (by decide), hne 'r' (by decide), hne 't' (by decide), hne 'f' (by decide),
      hne 'b' (by decide), hne 'u' (by decide)] at h
  | unicode acc high left val =>
    have hhex : hexVal c = none := by
      simp only [hexVal]
      rw [if_neg (by omega), if_neg (by omega), if_neg (by omega)]
    rw [scan, hhex] at h
    cases h
  | paired acc high =>
    rw [scan, if_neg (hne '\\' (by decide))] at h
    cases h
  | pairedU acc high =>
    rw [scan, if_neg (hne 'u' (by decide))] at h
    cases h

/-- Where the scanner gets through a text, it gets through the escaped text. -/
theorem advance_asciiChars {cs : List Char} {st : Scan} {last : List Char} {ts rest : List Token}
    (h : advance st cs = some (.plain last, ts)) (hlast : flush last = some rest) :
    advance st (asciiChars cs) = some (.plain last, ts) := by
  induction cs generalizing st ts with
  | nil => exact h
  | cons c cs ih =>
    rw [advance] at h
    cases hscan : scan st c with
    | none =>
      rw [hscan] at h
      cases h
    | some p =>
      obtain ⟨st', out⟩ := p
      rw [hscan] at h
      obtain ⟨⟨st'', more⟩, hrest, heq⟩ := Option.map_eq_some_iff.mp h
      cases heq
      have hcs := ih hrest
      rw [asciiChars, List.flatMap_cons]
      by_cases hc : 127 ≤ c.toNat
      · rw [if_pos hc]
        rcases scan_above hc hscan with ⟨acc, rfl, rfl, rfl⟩ | ⟨atom, rfl⟩
        · exact advance_trans (advance_unicodeEscapes acc c) hcs
        · obtain ⟨atom', hst, hmem⟩ := advance_stuck (flush_above hc) List.mem_cons_self hrest
          cases hst
          rw [flush_above hc last hmem] at hlast
          cases hlast
      · rw [if_neg hc]
        exact advance_cons hscan hcs

/-- **Round trip of the ASCII text**: reading what was written gives back the value. -/
theorem loads_asciiDumps (j : Value) : loads (asciiDumps j) = some j := by
  obtain ⟨last, ts, rest, hadv, hlast, hout⟩ := ends_dump j
  have hends : Ends (asciiChars (dumpChars j)) (toks j) :=
    ⟨last, ts, rest, advance_asciiChars hadv hlast, hlast, hout⟩
  have hsame : loads (asciiDumps j) = loads (dumps j) := by
    simp only [loads, asciiDumps, dumps, readChars, String.toList_ofList, hends.tokens,
      (ends_dump j).tokens]
  rw [hsame, loads_dumps]

end MyOriShop.Lib.Json
