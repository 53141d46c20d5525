import Mathlib.Data.List.Sort
import Mathlib.Data.Prod.Lex
import MyOriShop.Constraints
import MyOriShop.Exchange
import MyOriShop.Lib.Paging

/-!
# Pull pages: the reference data of the server (`app/services/sync.py`)

The server hands out its reference rows kind by kind with the parents first, the rows of a kind in
the order of `(cursor column, id)`. A page ends with a cursor, the two halves of its last row's key;
which kind that row is of, the server finds out from its id.

* `collectReferenceRecords` is `collect_reference_records`, with `clampLimit` and `resumeKind`.
* `referenceStream` is the order in which the rows come.
* `pullPages` is the client's loop over the pages.

Results:
* `collectKinds_eq`, `collectResumed_eq`: a first page is the start of the stream, another page the
  start of what comes after its cursor.
* `pullPages_complete`: the pages end, and make up the stream.
-/

namespace MyOriShop

open Lib.Paging

variable {d : Db}

/-! ## The query -/

/-- `PULL_KINDS`. -/
def pullKinds : List Kind := [.warehouse, .product, .customer, .dictionary, .batch, .sale]

/-- The value of the `CURSOR_COLUMN` of a row. The ledger kinds are not pulled. -/
def cursorValue : (k : Kind) → Row k → String
  | .warehouse, r => Warehouse.updatedAt r
  | .product, r => Product.updatedAt r
  | .customer, r => Customer.updatedAt r
  | .dictionary, r => Dictionary.updatedAt r
  | .batch, r => Batch.updatedAt r
  | .sale, r => Sale.createdAt r
  | .operation, r => Operation.createdAt r
  | .cashMovement, r => CashMovement.createdAt r

/-- The composite cursor of a row. -/
def cursorKey (k : Kind) (r : Row k) : String ×ₗ String := toLex (cursorValue k r, rowId k r)

/-- `ORDER BY column, id`. -/
def inCursorOrder (k : Kind) (rows : List (Row k)) : List (Row k) :=
  rows.insertionSort fun r r' => cursorKey k r ≤ cursorKey k r'

/-- `DEFAULT_PULL_LIMIT`. -/
def defaultPullLimit : Nat := 500

/-- `MAX_PULL_LIMIT`. -/
def maxPullLimit : Nat := 2000

/-- `_clamp_limit`. -/
def clampLimit : Option Int → Nat
  | none => defaultPullLimit
  | some n => if n ≤ 0 then defaultPullLimit else min n.toNat maxPullLimit

/-- `_resume_kind`. -/
def resumeKind (d : Db) (afterId : String) : Option Kind :=
  pullKinds.find? fun k => afterId ∈ d.ids k

/-- The rows of one kind: the `WHERE` clause, the order and the limit. -/
def selectRows (d : Db) (k : Kind) (keep : Row k → Bool) (remaining : Nat) : List AnyRow :=
  ((inCursorOrder k ((d.get k).filter keep)).take remaining).map (Sigma.mk k)

/-- The strictly greater composite predicate of the resume kind. -/
def afterCursor (since afterId : String) (k : Kind) (r : Row k) : Bool :=
  since < cursorValue k r || (cursorValue k r = since && afterId < rowId k r)

/-- The inclusive predicate of a first page. -/
def fromCursor (since : Option String) (k : Kind) (r : Row k) : Bool :=
  since.all fun s => s ≤ cursorValue k r

/-- The loop over the kinds once the resume kind is behind: a first page is bounded by `since`, a
later one is not. -/
def collectKinds (d : Db) (since : Option String) : Nat → List Kind → List AnyRow
  | _, [] => []
  | remaining, k :: kinds =>
    if remaining = 0 then []
    else
      let rows := selectRows d k (fromCursor since k) remaining
      rows ++ collectKinds d since (remaining - rows.length) kinds

/-- The loop over the kinds up to the resume kind: those before it are skipped. -/
def collectResumed (d : Db) (resume : Kind) (since afterId : String) (remaining : Nat) :
    List Kind → List AnyRow
  | [] => []
  | k :: kinds =>
    if remaining = 0 then []
    else if k ≠ resume then collectResumed d resume since afterId remaining kinds
    else
      let rows := selectRows d k (afterCursor since afterId k) remaining
      rows ++ collectKinds d none (remaining - rows.length) kinds

/-- The rows of a page. -/
def collectRows (d : Db) (since afterId : Option String) (limit : Nat) : List AnyRow :=
  match since, afterId with
  | some s, some a =>
    match resumeKind d a with
    | some k => collectResumed d k s a limit pullKinds
    | none => collectKinds d since limit pullKinds
  | _, _ => collectKinds d since limit pullKinds

/-- `PullPage`: one page and the cursor to go on from. -/
structure PullPage where
  records : List ExchangeRecord
  nextSince : Option String
  nextAfterId : Option String

/-- The page of its rows: the cursor is the last one's. -/
def pageOf (rows : List AnyRow) : PullPage where
  records := rows.map AnyRow.record
  nextSince := rows.getLast?.map fun r => cursorValue r.1 r.2
  nextAfterId := rows.getLast?.map fun r => rowId r.1 r.2

/-- `collect_reference_records`. -/
def collectReferenceRecords (d : Db) (since afterId : Option String) (limit : Option Int) :
    PullPage :=
  pageOf (collectRows d since afterId (clampLimit limit))

/-- The client's loop: it asks with both halves of the last cursor until a page is short. -/
def pullPages (d : Db) (limit : Option Int) : Nat → Option String → Option String →
    Option (List PullPage)
  | 0, _, _ => none
  | fuel + 1, since, afterId =>
    let page := collectReferenceRecords d since afterId limit
    if page.records.length < clampLimit limit then some [page]
    else (pullPages d limit fuel page.nextSince page.nextAfterId).map fun pages => page :: pages

/-! ## The stream -/

/-- The rows of some kinds in the order they are handed out. -/
def streamOf (d : Db) (kinds : List Kind) : List AnyRow :=
  kinds.flatMap fun k => (inCursorOrder k (d.get k)).map (Sigma.mk k)

/-- The reference rows in the order they are handed out. -/
def referenceStream (d : Db) : List AnyRow := streamOf d pullKinds

theorem mem_inCursorOrder {k : Kind} {rows : List (Row k)} {r : Row k} :
    r ∈ inCursorOrder k rows ↔ r ∈ rows :=
  (List.perm_insertionSort _ _).mem_iff

theorem mem_streamOf {kinds : List Kind} {r : AnyRow} :
    r ∈ streamOf d kinds ↔ r.1 ∈ kinds ∧ r.2 ∈ d.get r.1 := by
  unfold streamOf
  rw [List.mem_flatMap]
  constructor
  · rintro ⟨k, hk, hr⟩
    obtain ⟨row, hrow, rfl⟩ := List.mem_map.mp hr
    exact ⟨hk, mem_inCursorOrder.mp hrow⟩
  · rintro ⟨hk, hr⟩
    exact ⟨r.1, hk, List.mem_map.mpr ⟨r.2, mem_inCursorOrder.mpr hr, rfl⟩⟩

theorem cursorKey_le (k : Kind) (rows : List (Row k)) :
    (inCursorOrder k rows).Pairwise fun r r' => cursorKey k r ≤ cursorKey k r' :=
  List.pairwise_insertionSort _ _

/-- Rows with different ids have different cursors. -/
theorem cursorKey_lt {k : Kind} {rows : List (Row k)} (h : (rows.map (rowId k)).Nodup) :
    (inCursorOrder k rows).Pairwise fun r r' => cursorKey k r < cursorKey k r' := by
  have hids : ((inCursorOrder k rows).map (rowId k)).Nodup :=
    ((List.perm_insertionSort _ rows).map (rowId k)).nodup_iff.mpr h
  refine (cursorKey_le k rows).imp₂ (fun r r' hle hne => ?_) (List.pairwise_map.mp hids)
  refine hle.lt_of_ne fun heq => hne ?_
  exact congrArg (fun key => (ofLex key).2) heq

/-- The order of the rows that satisfy a condition is the order of all rows. -/
theorem inCursorOrder_filter {k : Kind} {rows : List (Row k)} (h : (rows.map (rowId k)).Nodup)
    (keep : Row k → Bool) :
    inCursorOrder k (rows.filter keep) = (inCursorOrder k rows).filter keep := by
  have hfewer : ((rows.filter keep).map (rowId k)).Nodup := h.sublist (List.filter_sublist.map _)
  have hsame : (inCursorOrder k (rows.filter keep)).Perm ((inCursorOrder k rows).filter keep) :=
    (List.perm_insertionSort _ _).trans ((List.perm_insertionSort _ rows).symm.filter keep)
  refine hsame.eq_of_pairwise ?_ (cursorKey_lt hfewer) ((cursorKey_lt h).filter keep)
  exact fun r r' _ _ hlt hgt => absurd hgt (lt_asymm hlt)

theorem selectRows_eq (hd : (d.ids k).Nodup) (keep : Row k → Bool) (remaining : Nat) :
    selectRows d k keep remaining =
      (((inCursorOrder k (d.get k)).filter keep).map (Sigma.mk k)).take remaining := by
  rw [selectRows, inCursorOrder_filter hd, List.map_take]

/-! ## A page is a piece of the stream -/

/-- A first page's condition on a row of some kind. -/
def onFirstPage (since : Option String) (r : AnyRow) : Bool := fromCursor since r.1 r.2

theorem collectKinds_eq (hd : ∀ k, (d.ids k).Nodup) (since : Option String) (kinds : List Kind)
    (remaining : Nat) : collectKinds d since remaining kinds =
      ((streamOf d kinds).filter (onFirstPage since)).take remaining := by
  induction kinds generalizing remaining with
  | nil => exact (List.take_nil).symm
  | cons k kinds ih =>
    have hstream : streamOf d (k :: kinds) =
      (inCursorOrder k (d.get k)).map (Sigma.mk k) ++ streamOf d kinds := List.flatMap_cons
    have hkind : ((inCursorOrder k (d.get k)).filter (fromCursor since k)).map (Sigma.mk k) =
        ((inCursorOrder k (d.get k)).map (Sigma.mk k)).filter (onFirstPage since) := by
      rw [List.filter_map]
      rfl
    rw [collectKinds]
    split_ifs with hzero
    · rw [hzero, List.take_zero]
    · dsimp only
      rw [selectRows_eq (hd k), ih, hstream, List.filter_append, hkind, List.take_append,
        List.length_take]
      congr 2
      omega

/-- A first page with no cursor takes every row. -/
theorem onFirstPage_none : onFirstPage none = fun _ => true := rfl

theorem afterCursor_iff {since afterId : String} {k : Kind} {r : Row k} :
    afterCursor since afterId k r = true ↔ toLex (since, afterId) < cursorKey k r := by
  unfold afterCursor cursorKey
  rw [Prod.Lex.toLex_lt_toLex, @eq_comm _ since]
  simp only [Bool.or_eq_true, Bool.and_eq_true, decide_eq_true_eq]

/-- The rows after a row of its kind are those with a greater cursor. -/
theorem filter_afterCursor {k : Kind} {rows pre post : List (Row k)} {x : Row k}
    (h : rows.Pairwise fun r r' => cursorKey k r < cursorKey k r') (hrows : rows = pre ++ x :: post) :
    rows.filter (afterCursor (cursorValue k x) (rowId k x) k) = post := by
  have hafter : ∀ r, afterCursor (cursorValue k x) (rowId k x) k r = true ↔
      cursorKey k x < cursorKey k r := fun r => afterCursor_iff
  rw [hrows] at h ⊢
  obtain ⟨-, hpost, hcross⟩ := List.pairwise_append.mp h
  obtain ⟨hx, -⟩ := List.pairwise_cons.mp hpost
  have hpre : pre.filter (afterCursor (cursorValue k x) (rowId k x) k) = [] := by
    refine List.filter_eq_nil_iff.mpr fun r hr => ?_
    rw [hafter]
    exact lt_asymm (hcross r hr x List.mem_cons_self)
  have hself : ¬afterCursor (cursorValue k x) (rowId k x) k x = true := by
    rw [hafter]
    exact lt_irrefl _
  rw [List.filter_append, hpre, List.filter_cons_of_neg hself, List.nil_append,
    List.filter_eq_self]
  exact fun r hr => (hafter r).mpr (hx r hr)

/-- Where a row stands in the stream of some kinds: among the first kind's, or after them. -/
theorem streamOf_cons {k : Kind} {kinds : List Kind} (hk : k ∉ kinds) {pre post : List AnyRow}
    {x : AnyRow} (h : streamOf d (k :: kinds) = pre ++ x :: post) :
    (x.1 ≠ k ∧ ∃ mid, streamOf d kinds = mid ++ x :: post) ∨
      (x.1 = k ∧ ∃ mid, (inCursorOrder k (d.get k)).map (Sigma.mk k) = pre ++ x :: mid ∧
        post = mid ++ streamOf d kinds) := by
  have hcons : (inCursorOrder k (d.get k)).map (Sigma.mk k) ++ streamOf d kinds =
    pre ++ x :: post := h
  have hlater : ∀ mid, streamOf d kinds = mid ++ x :: post → x.1 ≠ k := by
    rintro mid hmid rfl
    refine hk (mem_streamOf.mp (?_ : x ∈ streamOf d kinds)).1
    rw [hmid]
    exact List.mem_append_right _ List.mem_cons_self
  rcases List.append_eq_append_iff.mp hcons with ⟨mid, -, hrest⟩ | ⟨mid, hfirst, hrest⟩
  · exact .inl ⟨hlater mid hrest, mid, hrest⟩
  · cases mid with
    | nil => exact .inl ⟨hlater [] hrest.symm, [], hrest.symm⟩
    | cons y mid =>
      obtain ⟨rfl, hpost⟩ := List.cons.inj hrest
      refine .inr ⟨?_, mid, hfirst, hpost⟩
      have hmem : x ∈ (inCursorOrder k (d.get k)).map (Sigma.mk k) := by
        rw [hfirst]
        exact List.mem_append_right _ List.mem_cons_self
      obtain ⟨row, -, rfl⟩ := List.mem_map.mp hmem
      rfl

/-- The rows after a cursor of some kind: the later ones of the kind, and every later kind. -/
def streamAfter (d : Db) (resume : Kind) (since afterId : String) : List Kind → List AnyRow
  | [] => []
  | k :: kinds =>
    if k ≠ resume then streamAfter d resume since afterId kinds
    else ((inCursorOrder k (d.get k)).filter (afterCursor since afterId k)).map (Sigma.mk k) ++
      streamOf d kinds

theorem collectResumed_eq (hd : ∀ k, (d.ids k).Nodup) (resume : Kind) (since afterId : String)
    (remaining : Nat) (kinds : List Kind) :
    collectResumed d resume since afterId remaining kinds =
      (streamAfter d resume since afterId kinds).take remaining := by
  induction kinds with
  | nil => exact (List.take_nil).symm
  | cons k kinds ih =>
    rw [collectResumed, streamAfter]
    split_ifs with hzero hk
    · rw [hzero, List.take_zero]
    · rw [hzero, List.take_zero]
    · exact ih
    · dsimp only
      rw [selectRows_eq (hd k), collectKinds_eq hd, onFirstPage_none,
        List.filter_eq_self.mpr fun _ _ => rfl, List.take_append, List.length_take]
      congr 2
      omega

/-- After the cursor of a row come the rows after it. -/
theorem streamAfter_eq (hd : ∀ k, (d.ids k).Nodup) {kinds : List Kind} (hkinds : kinds.Nodup)
    {pre post : List AnyRow} {x : AnyRow} (hstream : streamOf d kinds = pre ++ x :: post) :
    streamAfter d x.1 (cursorValue x.1 x.2) (rowId x.1 x.2) kinds = post := by
  induction kinds generalizing pre with
  | nil => exact absurd hstream.symm (List.append_ne_nil_of_right_ne_nil _ (List.cons_ne_nil _ _))
  | cons k kinds ih =>
    obtain ⟨hk, hkinds⟩ := List.nodup_cons.mp hkinds
    rw [streamAfter]
    rcases streamOf_cons hk hstream with ⟨hne, mid, hmid⟩ | ⟨rfl, mid, hmid, hpost⟩
    · rw [if_pos hne.symm]
      exact ih hkinds hmid
    · rw [if_neg (not_not.mpr rfl)]
      obtain ⟨before, rest, hrows, hbefore, hrest⟩ := List.map_eq_append_iff.mp hmid
      obtain ⟨row, after, rfl, hrow, hafter⟩ := List.map_eq_cons_iff.mp hrest
      obtain rfl : row = x.2 := eq_of_heq (Sigma.mk.inj (hrow.trans (Sigma.eta x).symm)).2
      have hgreater : (inCursorOrder x.1 (d.get x.1)).filter
          (afterCursor (cursorValue x.1 x.2) (rowId x.1 x.2) x.1) = after :=
        filter_afterCursor (cursorKey_lt (hd x.1)) hrows
      rw [hgreater, hafter, hpost]

/-- The resume kind of a row's id is its kind. -/
theorem find_kind {kinds : List Kind} (hunique : (kinds.flatMap d.ids).Nodup) {k : Kind}
    (hk : k ∈ kinds) {i : String} (hi : i ∈ d.ids k) :
    (kinds.find? fun k => decide (i ∈ d.ids k)) = some k := by
  induction kinds with
  | nil => exact absurd hk List.not_mem_nil
  | cons k' kinds ih =>
    obtain ⟨-, hrest, hdisjoint⟩ := List.nodup_append.mp (List.flatMap_cons ▸ hunique)
    by_cases hfirst : i ∈ d.ids k'
    · rw [List.find?_cons_of_pos (by simpa using hfirst)]
      rcases List.mem_cons.mp hk with rfl | hk
      · rfl
      · exact absurd rfl (hdisjoint i hfirst i (List.mem_flatMap.mpr ⟨k, hk, hi⟩))
    · rw [List.find?_cons_of_neg (by simpa using hfirst)]
      rcases List.mem_cons.mp hk with rfl | hk
      · exact absurd hi hfirst
      · exact ih hrest hk

/-- The rows the server has still to hand out after a cursor. -/
def ahead (d : Db) : Option String × Option String → List AnyRow
  | (some s, some a) =>
    match resumeKind d a with
    | some k => streamAfter d k s a pullKinds
    | none => (referenceStream d).filter (onFirstPage (some s))
  | (since, _) => (referenceStream d).filter (onFirstPage since)

/-! ## The loop -/

/-- A page as the server answers both halves of a cursor. -/
def pageRows (d : Db) (limit : Nat) (cursor : Option String × Option String) : List AnyRow :=
  collectRows d cursor.1 cursor.2 limit

/-- The cursor a page ends with. -/
def nextCursor (rows : List AnyRow) : Option String × Option String :=
  ((pageOf rows).nextSince, (pageOf rows).nextAfterId)

/-- The cursor of a row. -/
def rowCursor (r : AnyRow) : Option String × Option String :=
  (some (cursorValue r.1 r.2), some (rowId r.1 r.2))

theorem clampLimit_pos (limit : Option Int) : 0 < clampLimit limit := by
  cases limit with
  | none => decide
  | some n =>
    show 0 < if n ≤ 0 then defaultPullLimit else min n.toNat maxPullLimit
    have hmax : 0 < maxPullLimit := by decide
    have hdefault : 0 < defaultPullLimit := by decide
    split_ifs with hn <;> omega

/-- A page is the start of what is ahead. -/
theorem pageRows_eq (hd : ∀ k, (d.ids k).Nodup) (limit : Nat)
    (cursor : Option String × Option String) :
    pageRows d limit cursor = (ahead d cursor).take limit := by
  obtain ⟨since, afterId⟩ := cursor
  unfold pageRows collectRows ahead
  cases since with
  | none => exact collectKinds_eq hd none pullKinds limit
  | some s =>
    cases afterId with
    | none => exact collectKinds_eq hd (some s) pullKinds limit
    | some a =>
      dsimp only
      cases resumeKind d a with
      | none => exact collectKinds_eq hd (some s) pullKinds limit
      | some k => exact collectResumed_eq hd k s a limit pullKinds

/-- Ahead of a row's cursor are the rows after it. -/
theorem ahead_rowCursor (hd : ∀ k, (d.ids k).Nodup) (hunique : (pullKinds.flatMap d.ids).Nodup)
    {pre post : List AnyRow} {x : AnyRow} (hstream : referenceStream d = pre ++ x :: post) :
    ahead d (rowCursor x) = post := by
  have hx : x ∈ referenceStream d := by
    rw [hstream]
    exact List.mem_append_right _ List.mem_cons_self
  obtain ⟨hkind, hrow⟩ := mem_streamOf.mp hx
  have hresume : resumeKind d (rowId x.1 x.2) = some x.1 :=
    find_kind hunique hkind (List.mem_map_of_mem hrow)
  unfold ahead rowCursor
  dsimp only
  rw [hresume]
  exact streamAfter_eq hd (by decide) hstream

theorem nextCursor_append (rows : List AnyRow) (x : AnyRow) :
    nextCursor (rows ++ [x]) = rowCursor x := by
  simp [nextCursor, pageOf, rowCursor]

/-- **The server goes on** after the row whose cursor it is asked with. -/
theorem serves_reference (hd : ∀ k, (d.ids k).Nodup)
    (hunique : (pullKinds.flatMap d.ids).Nodup) (limit : Option Int) :
    Serves (clampLimit limit) (referenceStream d) rowCursor (pageRows d (clampLimit limit))
      nextCursor where
  pos := clampLimit_pos limit
  next := nextCursor_append
  page pre x post hstream := by rw [pageRows_eq hd, ahead_rowCursor hd hunique hstream]

/-- The loop is the loop of a client over the server's pages. -/
theorem pullPages_eq (d : Db) (limit : Option Int) (fuel : Nat) (since afterId : Option String) :
    pullPages d limit fuel since afterId =
      (drain (clampLimit limit) (pageRows d (clampLimit limit)) nextCursor fuel
        (since, afterId)).map fun pages => pages.map pageOf := by
  induction fuel generalizing since afterId with
  | zero => rfl
  | succ fuel ih =>
    have hlength : (collectReferenceRecords d since afterId limit).records.length =
        (pageRows d (clampLimit limit) (since, afterId)).length := by
      rw [collectReferenceRecords, pageOf, List.length_map]
      rfl
    rw [pullPages, drain, hlength]
    split_ifs with hshort
    · rfl
    · rw [ih, Option.map_map, Option.map_map]
      rfl

/-! ## Parents first -/

/-- Every row comes after the rows it refers to. -/
def ParentsBefore (rows : List AnyRow) : Prop :=
  ∀ pre r post, rows = pre ++ r :: post → ∀ ref ∈ Db.references r.1 r.2, ∃ p ∈ pre, p.key = ref

/-- The place of a kind in the order of the pull. -/
def pullRank (k : Kind) : Nat := pullKinds.idxOf k

theorem pullRank_parents : ∀ k ∈ pullKinds, ∀ p ∈ Db.parents k,
    p ∈ pullKinds ∧ pullRank p < pullRank k := by
  decide

theorem pullRank_stream (d : Db) :
    (referenceStream d).Pairwise fun r r' => pullRank r.1 ≤ pullRank r'.1 := by
  have horder : pullKinds.Pairwise fun k k' => pullRank k ≤ pullRank k' := by decide
  have hkind : ∀ k, ∀ r ∈ (inCursorOrder k (d.get k)).map (Sigma.mk k), r.1 = k := by
    intro k r hr
    obtain ⟨row, -, rfl⟩ := List.mem_map.mp hr
    rfl
  refine List.pairwise_flatMap.mpr ⟨fun k _ => ?_, horder.imp fun hle r hr r' hr' => ?_⟩
  · refine List.pairwise_of_forall_mem_list fun r hr r' hr' => ?_
    rw [hkind k r hr, hkind k r' hr']
  · rwa [hkind _ r hr, hkind _ r' hr']

/-- In rows ordered by a rank, those of a smaller rank come before. -/
theorem mem_before {α : Type} {rank : α → Nat} {rows pre post : List α} {r p : α}
    (horder : rows.Pairwise fun r r' => rank r ≤ rank r') (hrows : rows = pre ++ r :: post)
    (hp : p ∈ rows) (hrank : rank p < rank r) : p ∈ pre := by
  rw [hrows] at horder hp
  refine (List.mem_append.mp hp).resolve_right fun hlater => ?_
  obtain ⟨-, hrest, -⟩ := List.pairwise_append.mp horder
  rcases List.mem_cons.mp hlater with rfl | hlater
  · exact lt_irrefl _ hrank
  · exact Nat.not_le.mpr hrank ((List.pairwise_cons.mp hrest).1 p hlater)

/-- **Parents first**: a row of the stream comes after the rows it refers to. -/
theorem parentsBefore_stream (hd : d.Ok) : ParentsBefore (referenceStream d) := by
  intro pre r post hstream ref href
  have hr : r ∈ referenceStream d := by
    rw [hstream]
    exact List.mem_append_right _ List.mem_cons_self
  obtain ⟨hkind, hrow⟩ := mem_streamOf.mp hr
  obtain ⟨hparent, hrank⟩ := pullRank_parents r.1 hkind ref.1 (Db.mem_parents href)
  obtain ⟨parent, hmem, hid⟩ := List.mem_map.mp ((Db.ok_iff.mp hd).2 r.1 r.2 hrow ref href)
  have hstreamed : (⟨ref.1, parent⟩ : AnyRow) ∈ referenceStream d := mem_streamOf.mpr ⟨hparent, hmem⟩
  exact ⟨⟨ref.1, parent⟩, mem_before (pullRank_stream d) hstream hstreamed hrank,
    Prod.ext rfl hid⟩

/-! ## Complete -/

/-- Every reference row, kind by kind. -/
def referenceRows (d : Db) : List AnyRow := pullKinds.flatMap fun k => (d.get k).map (Sigma.mk k)

theorem stream_perm (d : Db) : (referenceStream d).Perm (referenceRows d) := by
  refine List.Perm.flatMap_left _ fun k _ => ?_
  exact (List.perm_insertionSort _ _).map _

/-- **Paging** ends: every page but the last is full. With no cursor the pages hold every reference
row exactly once, the parents first; with a timestamp they hold every row that is not older. -/
theorem pullPages_complete (db : Database) (hunique : (pullKinds.flatMap db.db.ids).Nodup)
    (limit : Option Int) (since : Option String) :
    ∃ pages, pullPages db.db limit ((referenceStream db.db).length + 1) since none = some pages ∧
      (∃ full last, pages = full ++ [last] ∧ (∀ p ∈ full, clampLimit limit ≤ p.records.length) ∧
        last.records.length < clampLimit limit) ∧
      (since = none → ∃ rows, pages.flatMap PullPage.records = rows.map AnyRow.record ∧
        rows.Perm (referenceRows db.db) ∧ ParentsBefore rows) ∧
      (∀ s, since = some s → ∀ k ∈ pullKinds, ∀ r ∈ db.db.get k, s ≤ cursorValue k r →
        rowRecord k r ∈ pages.flatMap PullPage.records) := by
  have hserves := serves_reference (fun k => db.ok.nodup k) hunique limit
  have hfirst : pageRows db.db (clampLimit limit) (since, none) =
      ((referenceStream db.db).filter (onFirstPage since)).take (clampLimit limit) := by
    rw [pageRows_eq fun k => db.ok.nodup k]
    cases since <;> rfl
  obtain ⟨chunks, pre, post, hdrain, hstream, hflat⟩ :=
    hserves.drain_start hfirst (Nat.lt_succ_self _)
  have hrecords : (chunks.map pageOf).flatMap PullPage.records = chunks.flatten.map AnyRow.record := by
    rw [List.flatMap_map, List.map_flatten]
    rfl
  refine ⟨chunks.map pageOf, by rw [pullPages_eq, hdrain]; rfl, ?_, ?_, ?_⟩
  · obtain ⟨full, last, rfl, hfull, hlast⟩ := drain_pages hdrain
    refine ⟨full.map pageOf, pageOf last, by simp, ?_, by simpa [pageOf] using hlast⟩
    intro p hp
    obtain ⟨rows, hrows, rfl⟩ := List.mem_map.mp hp
    simpa [pageOf] using hfull rows hrows
  · rintro rfl
    have hall : chunks.flatten = referenceStream db.db := by
      rw [hflat, hstream, onFirstPage_none, List.filter_eq_self.mpr fun _ _ => rfl]
    rw [hall] at hrecords
    exact ⟨_, hrecords, stream_perm db.db, parentsBefore_stream db.ok⟩
  · rintro s rfl k hk r hr hle
    rw [hrecords]
    refine List.mem_map.mpr ⟨⟨k, r⟩, ?_, rfl⟩
    have hmem : (⟨k, r⟩ : AnyRow) ∈ referenceStream db.db := mem_streamOf.mpr ⟨hk, hr⟩
    rw [hstream] at hmem
    rw [hflat, List.mem_append]
    refine (List.mem_append.mp hmem).imp_left fun hpre => List.mem_filter.mpr ⟨hpre, ?_⟩
    exact decide_eq_true hle

/-- Three warehouses stamped by one bulk edit. -/
def bulkEdited : Db where
  warehouses := ["a", "b", "c"].map fun id =>
    { id := id
      name := id
      address := none
      currency := "RUB"
      createdAt := "2026-01-01T00:00:00+00:00"
      updatedAt := "2026-01-02T00:00:00+00:00"
      deletedAt := none }

/-- Pages of two, all with one timestamp. -/
theorem pullPages_complete_bulkEdited : ∃ pages, ∃ rows : List AnyRow,
    pullPages bulkEdited (some 2) 4 none none = some pages ∧
      pages.flatMap PullPage.records = rows.map AnyRow.record ∧
      rows.Perm (referenceRows bulkEdited) := by
  obtain ⟨pages, hpages, -, hall, -⟩ :=
    pullPages_complete ⟨bulkEdited, by decide⟩ (by decide) (some 2) none
  obtain ⟨rows, hrows, hperm, -⟩ := hall rfl
  exact ⟨pages, rows, hpages, hrows, hperm⟩

example : (pullPages bulkEdited (some 2) 4 none none).map
    (fun pages => pages.map fun p => p.records.length) = some [2, 1] := by
  decide

end MyOriShop
