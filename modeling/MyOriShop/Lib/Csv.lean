import Mathlib.Data.List.Basic

/-!
# CSV: a writer and a reader with one delimiter

The writer quotes a cell where it has to: a cell with the delimiter, a quote or the end of a line in
it, and the one cell of a row that is empty. A quote inside is doubled, a row ends with CR LF. The
reader goes from character to character, takes both ends of lines in any combination and accepts what
no writer writes.

* `writeRow δ`, `writeRows δ` are the writer, `readRows δ` the reader.

Results:
* `readRows_writeRows`: what was written is read back, cell by cell.
-/

namespace MyOriShop.Lib.Csv

/-- The end of a line. -/
def isNewline (c : Char) : Bool := c = '\r' || c = '\n'

variable (δ : Char)

/-! ## The writer -/

/-- What a cell may not have in it as it is. -/
def isSpecial (c : Char) : Bool := c = δ || c = '"' || isNewline c

/-- A cell with its quotes doubled. -/
def doubled : List Char → List Char
  | [] => []
  | c :: cs => if c = '"' then '"' :: '"' :: doubled cs else c :: doubled cs

/-- A cell, in quotes where it has to be. -/
def writeCell (cell : List Char) : List Char :=
  if cell.any (isSpecial δ) then '"' :: (doubled cell ++ ['"']) else cell

/-- The cells of a row with the delimiter between them. -/
def joinCells : List (List Char) → List Char
  | [] => []
  | [cell] => writeCell δ cell
  | cell :: next :: cells => writeCell δ cell ++ δ :: joinCells (next :: cells)

/-- A row. -/
def writeRow (cells : List (List Char)) : List Char :=
  (if cells = [[]] then ['"', '"'] else joinCells δ cells) ++ ['\r', '\n']

/-- Rows one after another. -/
def writeRows (rows : List (List (List Char))) : List Char := rows.flatMap (writeRow δ)

/-! ## The reader -/

/-- Where the reader stands. -/
inductive Mode where
  | startRecord
  | startField
  | inField
  | inQuoted
  /-- Behind a quote inside quotes. -/
  | quoteInQuoted
  /-- Behind a CR. -/
  | afterCr

/-- The mode, the cell so far and the cells before it, the latest first. -/
structure Scan where
  mode : Mode
  cell : List Char
  cells : List (List Char)

/-- Before a record. -/
def Scan.start (mode : Mode) : Scan := ⟨mode, [], []⟩

/-- The cells of a record that ends here. -/
def Scan.record (s : Scan) : List (List Char) := (s.cell.reverse :: s.cells).reverse

/-- One character more in the cell. -/
def Scan.add (s : Scan) (mode : Mode) (c : Char) : Scan := ⟨mode, c :: s.cell, s.cells⟩

/-- The cell ends. -/
def Scan.push (s : Scan) : Scan := ⟨.startField, [], s.cell.reverse :: s.cells⟩

/-- Behind the end of a line. -/
def afterNewline (c : Char) : Scan := .start (if c = '\r' then .afterCr else .startRecord)

/-- A character at the end of a cell, or behind its closing quote: a record has ended, a cell has, or
the cell goes on. -/
def Scan.delimit (s : Scan) (c : Char) : Scan × Option (List (List Char)) :=
  if isNewline c then (afterNewline c, some s.record)
  else if c = δ then (s.push, none)
  else (s.add .inField c, none)

/-- The first character of a cell. -/
def Scan.begin (s : Scan) (c : Char) : Scan × Option (List (List Char)) :=
  if c = '"' then (⟨.inQuoted, s.cell, s.cells⟩, none) else s.delimit δ c

/-- The first character of a record. A record without any is an empty row. -/
def beginRecord (c : Char) : Scan × Option (List (List Char)) :=
  if isNewline c then (afterNewline c, some []) else (Scan.start .startField).begin δ c

/-- One character, and the record that ends with it. -/
def Scan.feed (s : Scan) (c : Char) : Scan × Option (List (List Char)) :=
  match s.mode with
  | .startRecord => beginRecord δ c
  | .startField => s.begin δ c
  | .inField => s.delimit δ c
  | .inQuoted => (if c = '"' then ⟨.quoteInQuoted, s.cell, s.cells⟩ else s.add .inQuoted c, none)
  | .quoteInQuoted => if c = '"' then (s.add .inQuoted c, none) else s.delimit δ c
  | .afterCr => if c = '\n' then (.start .startRecord, none) else beginRecord δ c

/-- The record that the end of the text ends. -/
def Scan.finish (s : Scan) : List (List (List Char)) :=
  match s.mode with
  | .startRecord | .afterCr => []
  | .startField | .inField | .inQuoted | .quoteInQuoted => [s.record]

/-- The records of the rest of a text. -/
def readFrom (s : Scan) : List Char → List (List (List Char))
  | [] => s.finish
  | c :: cs =>
    match s.feed δ c with
    | (s', none) => readFrom s' cs
    | (s', some record) => record :: readFrom s' cs

/-- The records of a text. -/
def readRows (text : List Char) : List (List (List Char)) := readFrom δ (.start .startRecord) text

/-! ## Cells -/

variable {δ}

theorem readFrom_none {s s' : Scan} {c : Char} (h : s.feed δ c = (s', none)) (cs : List Char) :
    readFrom δ s (c :: cs) = readFrom δ s' cs := by
  rw [readFrom, h]

theorem readFrom_some {s s' : Scan} {c : Char} {record : List (List Char)}
    (h : s.feed δ c = (s', some record)) (cs : List Char) :
    readFrom δ s (c :: cs) = record :: readFrom δ s' cs := by
  rw [readFrom, h]

/-- The delimiter is no quote and no end of a line. -/
structure Delimits (δ : Char) : Prop where
  quote : δ ≠ '"'
  newline : isNewline δ = false

/-- The reader may end the cell here. -/
def Scan.Closed (s : Scan) : Prop :=
  match s.mode with
  | .startField | .inField | .quoteInQuoted => True
  | .startRecord | .inQuoted | .afterCr => False

/-- A closed cell before the delimiter. -/
theorem readFrom_delimiter (hδ : Delimits δ) {s : Scan} (h : s.Closed) (cs : List Char) :
    readFrom δ s (δ :: cs) = readFrom δ s.push cs := by
  refine readFrom_none ?_ cs
  obtain ⟨mode, cell, cells⟩ := s
  cases mode <;> first
    | exact h.elim
    | simp [Scan.feed, Scan.begin, Scan.delimit, hδ.quote, hδ.newline]

/-- A closed cell before the end of its row. -/
theorem readFrom_newline {s : Scan} (h : s.Closed) (cs : List Char) :
    readFrom δ s ('\r' :: '\n' :: cs) = s.record :: readFrom δ (.start .startRecord) cs := by
  have hcr : s.feed δ '\r' = (.start .afterCr, some s.record) := by
    obtain ⟨mode, cell, cells⟩ := s
    cases mode <;> first
      | exact h.elim
      | simp [Scan.feed, Scan.begin, Scan.delimit, isNewline, afterNewline]
  have hlf : (Scan.start .afterCr).feed δ '\n' = (.start .startRecord, none) := by
    simp [Scan.feed, Scan.start]
  rw [readFrom_some hcr, readFrom_none hlf]

/-- A cell inside quotes, up to the closing one. -/
theorem readFrom_doubled (cell acc : List Char) (cells : List (List Char)) (cs : List Char) :
    readFrom δ ⟨.inQuoted, acc, cells⟩ (doubled cell ++ '"' :: cs) =
      readFrom δ ⟨.quoteInQuoted, cell.reverse ++ acc, cells⟩ cs := by
  induction cell generalizing acc with
  | nil => exact readFrom_none (by simp [Scan.feed]) cs
  | cons c cell ih =>
    rw [doubled, List.reverse_cons, List.append_assoc, List.singleton_append]
    split_ifs with hc
    · subst hc
      rw [List.cons_append, List.cons_append, readFrom_none (by simp [Scan.feed]; rfl),
        readFrom_none (by simp [Scan.feed, Scan.add]; rfl)]
      exact ih _
    · rw [List.cons_append, readFrom_none (by simp [Scan.feed, hc, Scan.add]; rfl)]
      exact ih _

/-- The rest of a cell that needs no quotes. -/
theorem readFrom_plain {cell : List Char} (h : ∀ c ∈ cell, isSpecial δ c = false) (acc : List Char)
    (cells : List (List Char)) (cs : List Char) :
    readFrom δ ⟨.inField, acc, cells⟩ (cell ++ cs) =
      readFrom δ ⟨.inField, cell.reverse ++ acc, cells⟩ cs := by
  induction cell generalizing acc with
  | nil => rfl
  | cons c cell ih =>
    obtain ⟨hc, hcell⟩ := List.forall_mem_cons.mp h
    simp only [isSpecial, Bool.or_eq_false_iff, decide_eq_false_iff_not] at hc
    rw [List.reverse_cons, List.append_assoc, List.singleton_append, List.cons_append,
      readFrom_none (by simp [Scan.feed, Scan.delimit, hc, Scan.add]; rfl)]
    exact ih hcell _

/-- **A written cell** is read as it was, from the start of a cell on. -/
theorem readFrom_cell (cell : List Char) (cells : List (List Char)) :
    ∃ s : Scan, s.Closed ∧ s.cell = cell.reverse ∧ s.cells = cells ∧ ∀ cs,
      readFrom δ ⟨.startField, [], cells⟩ (writeCell δ cell ++ cs) = readFrom δ s cs := by
  by_cases hspecial : cell.any (isSpecial δ) = true
  · refine ⟨⟨.quoteInQuoted, cell.reverse, cells⟩, trivial, rfl, rfl, fun cs => ?_⟩
    rw [writeCell, if_pos hspecial, List.cons_append, List.append_assoc, List.singleton_append,
      readFrom_none (by simp [Scan.feed, Scan.begin]; rfl), readFrom_doubled, List.append_nil]
  · have hplain : ∀ c ∈ cell, isSpecial δ c = false := by
      rw [List.any_eq_true] at hspecial
      exact fun c hc => Bool.eq_false_iff.mpr fun h => hspecial ⟨c, hc, h⟩
    cases cell with
    | nil => exact ⟨⟨.startField, [], cells⟩, trivial, rfl, rfl, fun cs => by simp [writeCell]⟩
    | cons c cell =>
      obtain ⟨hc, hcell⟩ := List.forall_mem_cons.mp hplain
      simp only [isSpecial, Bool.or_eq_false_iff, decide_eq_false_iff_not] at hc
      refine ⟨⟨.inField, (c :: cell).reverse, cells⟩, trivial, rfl, rfl, fun cs => ?_⟩
      rw [writeCell, if_neg hspecial, List.cons_append,
        readFrom_none (by simp [Scan.feed, Scan.begin, Scan.delimit, hc, Scan.add]; rfl),
        readFrom_plain hcell, List.reverse_cons]

/-! ## Rows -/

/-- The cells of a row from the start of one of them on, the cells before it held back. -/
theorem readFrom_joinCells (hδ : Delimits δ) {row : List (List Char)} (hrow : row ≠ [])
    (cells : List (List Char)) (cs : List Char) :
    readFrom δ ⟨.startField, [], cells⟩ (joinCells δ row ++ '\r' :: '\n' :: cs) =
      (cells.reverse ++ row) :: readFrom δ (.start .startRecord) cs := by
  induction row generalizing cells with
  | nil => exact absurd rfl hrow
  | cons cell rest ih =>
    obtain ⟨s, hclosed, hcell, hcells, hread⟩ := readFrom_cell (δ := δ) cell cells
    cases rest with
    | nil =>
      rw [joinCells, hread, readFrom_newline hclosed, Scan.record, hcell, hcells,
        List.reverse_reverse, List.reverse_cons]
    | cons next rest =>
      rw [joinCells, List.append_assoc, List.cons_append, hread, readFrom_delimiter hδ hclosed,
        Scan.push, hcell, hcells, List.reverse_reverse, ih (List.cons_ne_nil _ _),
        List.reverse_cons, List.append_assoc, List.singleton_append]

/-- A cell with something in it starts no empty row. -/
theorem writeCell_head {cell : List Char} (h : cell ≠ []) :
    ∃ c cs, writeCell δ cell = c :: cs ∧ isNewline c = false := by
  by_cases hspecial : cell.any (isSpecial δ) = true
  · exact ⟨'"', _, by rw [writeCell, if_pos hspecial], by simp [isNewline]⟩
  · obtain ⟨c, cs, rfl⟩ := List.exists_cons_of_ne_nil h
    refine ⟨c, cs, by rw [writeCell, if_neg hspecial], ?_⟩
    rw [List.any_cons, isSpecial] at hspecial
    simp only [Bool.or_eq_true, not_or, Bool.not_eq_true] at hspecial
    exact hspecial.1.2

theorem joinCells_head (hδ : Delimits δ) {row : List (List Char)} (hrow : row ≠ []) (h : row ≠ [[]]) :
    ∃ c cs, joinCells δ row = c :: cs ∧ isNewline c = false := by
  match row with
  | [] => exact absurd rfl hrow
  | [cell] => exact writeCell_head fun hcell => h (by rw [hcell])
  | cell :: next :: rest =>
    rw [joinCells]
    by_cases hcell : cell = []
    · exact ⟨δ, _, by rw [hcell]; rfl, hδ.newline⟩
    · obtain ⟨c, cs, hc, hnewline⟩ := writeCell_head hcell
      exact ⟨c, _, by rw [hc, List.cons_append], hnewline⟩

/-- **A written row** is the first that is read. -/
theorem readFrom_writeRow (hδ : Delimits δ) (row : List (List Char)) (cs : List Char) :
    readFrom δ (.start .startRecord) (writeRow δ row ++ cs) =
      row :: readFrom δ (.start .startRecord) cs := by
  by_cases hempty : row = []
  · have hcr : (Scan.start .startRecord).feed δ '\r' = (.start .afterCr, some []) := by
      simp [Scan.feed, Scan.start, beginRecord, isNewline, afterNewline]
    have hlf : (Scan.start .afterCr).feed δ '\n' = (.start .startRecord, none) := by
      simp [Scan.feed, Scan.start]
    simp only [hempty, writeRow, joinCells, reduceIte, List.nil_append, List.cons_append,
      reduceCtorEq]
    rw [readFrom_some hcr, readFrom_none hlf]
  by_cases hblank : row = [[]]
  · have hopen : (Scan.start .startRecord).feed δ '"' = (⟨.inQuoted, [], []⟩, none) := by
      simp [Scan.feed, Scan.start, beginRecord, Scan.begin, isNewline]
    simp only [hblank, writeRow, reduceIte, List.cons_append, List.nil_append]
    rw [readFrom_none hopen]
    exact (readFrom_doubled [] [] [] _).trans (readFrom_newline (s := ⟨.quoteInQuoted, [], []⟩) trivial cs)
  · obtain ⟨c, rest, hjoin, hc⟩ := joinCells_head hδ hempty hblank
    have hstart : (Scan.start .startRecord).feed δ c = Scan.feed δ ⟨.startField, [], []⟩ c := by
      simp [Scan.feed, Scan.start, beginRecord, hc]
    have hread := readFrom_joinCells hδ hempty [] cs
    rw [hjoin, List.cons_append, readFrom, ← hstart, ← readFrom] at hread
    rw [writeRow, if_neg hblank, hjoin, List.append_assoc, List.cons_append]
    exact hread

/-- **Round trip.** What was written is read back. -/
theorem readRows_writeRows (hδ : Delimits δ) (rows : List (List (List Char))) :
    readRows δ (writeRows δ rows) = rows := by
  induction rows with
  | nil => rfl
  | cons row rows ih =>
    rw [writeRows, List.flatMap_cons, readRows, readFrom_writeRow hδ]
    exact congrArg _ ih

end MyOriShop.Lib.Csv
