import Mathlib.Logic.Relation
import MyOriShop.Pages

/-!
# Interleaving: a pull while the server is written (`app/services/sync.py`)

Every page is a request of its own, and between two of them the server takes the pushes of other
devices and the edits of cards. The kinds come with the parents first, but the pull never goes back
to a kind it has left: a parent that is written behind the cursor is not handed out, its child is.

* `PullStep` is a request of the client or a transaction of the server.
* `Consistent` says of the delivered pages that no row comes before the rows it refers to.
* `Covered` is the condition on a transaction: whatever is ahead finds its parents.

Results:
* `ahead_next`: a full page takes the rows it hands out from what is ahead, and no others.
* `pull_stays_consistent`: a pull is consistent as long as the transactions keep `Covered`; where
  one does not, the next requests alone hand out a row without its parent.
* `not_pull_consistent`: the first batch of a new product, pushed between two pages.
-/

namespace MyOriShop

open Relation (ReflTransGen)

variable {d client : Db} {limit : Option Int}

/-! ## What is ahead -/

/-- In a sorted list the elements above a bound are at the end. -/
theorem suffix_filter {α : Type} {R : α → α → Prop} {p : α → Bool} {l : List α} (hl : l.Pairwise R)
    (hp : ∀ a b, R a b → p a = true → p b = true) : l.filter p <:+ l := by
  induction l with
  | nil => exact List.suffix_refl _
  | cons a l ih =>
    obtain ⟨ha, hl⟩ := List.pairwise_cons.mp hl
    by_cases hpa : p a = true
    · have hall : ∀ b ∈ l, p b = true := fun b hb => hp a b (ha b hb) hpa
      exact ⟨[], by rw [List.nil_append, List.filter_cons_of_pos hpa, List.filter_eq_self.mpr hall]⟩
    · rw [List.filter_cons_of_neg hpa]
      exact (ih hl).trans (List.suffix_cons a l)

theorem streamAfter_suffix (d : Db) (resume : Kind) (since afterId : String) (kinds : List Kind) :
    streamAfter d resume since afterId kinds <:+ streamOf d kinds := by
  induction kinds with
  | nil => exact List.suffix_refl _
  | cons k kinds ih =>
    have hstream : streamOf d (k :: kinds) =
      (inCursorOrder k (d.get k)).map (Sigma.mk k) ++ streamOf d kinds := List.flatMap_cons
    rw [streamAfter, hstream]
    split_ifs with hk
    · exact ih.trans (List.suffix_append _ _)
    · have hafter : (inCursorOrder k (d.get k)).filter (afterCursor since afterId k) <:+
          inCursorOrder k (d.get k) := by
        refine suffix_filter (cursorKey_le k (d.get k)) fun r r' hle hr => ?_
        exact afterCursor_iff.mpr ((afterCursor_iff.mp hr).trans_le hle)
      obtain ⟨pre, hpre⟩ := hafter
      refine ⟨pre.map (Sigma.mk k), ?_⟩
      rw [← List.append_assoc, ← List.map_append, hpre]

/-- A cursor the server can go on from: none, or one with the id of a row it has. -/
def Resumes (d : Db) (cursor : Option String × Option String) : Prop :=
  cursor = (none, none) ∨ ∃ s i, cursor = (some s, some i) ∧ i ∈ pullKinds.flatMap d.ids

theorem resumes_rowCursor {r : AnyRow} (hr : r ∈ referenceStream d) : Resumes d (rowCursor r) := by
  obtain ⟨hkind, hrow⟩ := mem_streamOf.mp hr
  exact .inr ⟨_, _, rfl, List.mem_flatMap.mpr ⟨r.1, hkind, List.mem_map_of_mem hrow⟩⟩

theorem ahead_start (d : Db) : ahead d (none, none) = referenceStream d :=
  List.filter_eq_self.mpr fun _ _ => rfl

/-- **What is ahead** is the end of the stream, from wherever the cursor points at by now. -/
theorem ahead_suffix {cursor : Option String × Option String} (h : Resumes d cursor) :
    ahead d cursor <:+ referenceStream d := by
  rcases h with rfl | ⟨s, i, rfl, hi⟩
  · exact ⟨[], ahead_start d⟩
  · obtain ⟨k, hk, hik⟩ := List.mem_flatMap.mp hi
    unfold ahead
    dsimp only
    cases hresume : resumeKind d i with
    | some k => exact streamAfter_suffix d k s i pullKinds
    | none => exact absurd (decide_eq_true hik) (List.find?_eq_none.mp hresume k hk)

/-- **A full page** takes the rows it hands out from what is ahead, and no others. -/
theorem ahead_next (hd : ∀ k, (d.ids k).Nodup) (hunique : (pullKinds.flatMap d.ids).Nodup)
    {cursor : Option String × Option String} (h : Resumes d cursor) {n : Nat} (hn : 0 < n)
    (hfull : ¬(pageRows d n cursor).length < n) :
    Resumes d (nextCursor (pageRows d n cursor)) ∧
      ahead d (nextCursor (pageRows d n cursor)) = (ahead d cursor).drop n := by
  obtain ⟨pre, hpre⟩ := ahead_suffix h
  obtain ⟨init, x, hlast⟩ := Lib.Paging.exists_last hn hfull
  have hstream : referenceStream d = (pre ++ init) ++ x :: (ahead d cursor).drop n := by
    rw [← hpre, List.append_assoc]
    conv_lhs => rw [← List.take_append_drop n (ahead d cursor), ← pageRows_eq hd, hlast]
    rw [List.append_assoc, List.singleton_append]
  have hx : x ∈ referenceStream d := by
    rw [hstream]
    exact List.mem_append_right _ List.mem_cons_self
  rw [hlast, nextCursor_append]
  exact ⟨resumes_rowCursor hx, ahead_rowCursor hd hunique hstream⟩

/-! ## The steps -/

/-- A server's database: no id occurs in two of the tables that are pulled. -/
structure Server extends Database where
  unique : (pullKinds.flatMap db.ids).Nodup

/-- A transaction that inserts and updates rows: no id goes. -/
def Server.Writes (server server' : Server) : Prop :=
  ∀ k ∈ pullKinds, server.db.ids k ⊆ server'.db.ids k

/-- A pull under way: the server as it is by now, the cursor of the next request, the pages that
were delivered, and whether the client has seen the last one. -/
structure PullState where
  server : Server
  cursor : Option String × Option String
  pages : List (List AnyRow)
  finished : Bool

/-- `_pull_all` starts without a cursor. -/
def startPull (server : Server) : PullState where
  server := server
  cursor := (none, none)
  pages := []
  finished := false

/-- The page of the next request. -/
def PullState.page (limit : Option Int) (s : PullState) : List AnyRow :=
  pageRows s.server.db (clampLimit limit) s.cursor

/-- One round of the loop of `_pull_all`: the client stops when a page is short. -/
def PullState.request (limit : Option Int) (s : PullState) : PullState where
  server := s.server
  cursor := nextCursor (s.page limit)
  pages := s.pages ++ [s.page limit]
  finished := (s.page limit).length < clampLimit limit

/-- A step: a request, or a transaction of the server that ends in an allowed state. -/
inductive PullStep (limit : Option Int) (allowed : PullState → Prop) (s : PullState) :
    PullState → Prop where
  | request (hopen : s.finished = false) : PullStep limit allowed s (s.request limit)
  | write (server : Server) (hwrites : s.server.Writes server)
      (hallowed : allowed { s with server := server }) :
      PullStep limit allowed s { s with server := server }

/-! ## Consistency -/

/-- The rows a client finds in its tables or among the rows of pages. -/
def Known (client : Db) (rows : List AnyRow) (ref : Kind × String) : Prop :=
  ref.2 ∈ client.ids ref.1 ∨ ∃ p ∈ rows, p.key = ref

theorem Known.mono {rows rows' : List AnyRow} {ref : Kind × String} (h : Known client rows ref)
    (hsub : rows ⊆ rows') : Known client rows' ref :=
  h.imp_right fun ⟨p, hp, hkey⟩ => ⟨p, hsub hp, hkey⟩

/-- No row of a delivered page comes before a row it refers to. -/
def Consistent (client : Db) (s : PullState) : Prop :=
  ∀ before page after, s.pages = before ++ page :: after →
    ∀ r ∈ page, ∀ ref ∈ Db.references r.1 r.2, Known client (before.flatten ++ page) ref

/-- Whatever is ahead finds its parents: on the client, delivered, or ahead as well. -/
def Covered (client : Db) (s : PullState) : Prop :=
  s.finished = false → ∀ r ∈ ahead s.server.db s.cursor, ∀ ref ∈ Db.references r.1 r.2,
    Known client (s.pages.flatten ++ ahead s.server.db s.cursor) ref

/-- A client that has its rows and those of the pages before applies a page of a consistent pull
without missing a parent. -/
theorem Consistent.parents {s : PullState} (h : Consistent client s)
    {before after : List (List AnyRow)} {page : List AnyRow}
    (hpages : s.pages = before ++ page :: after) (hpage : ∀ r ∈ page, r.1 ∈ pullKinds)
    (hclient : ∀ k, client.ids k ⊆ d.ids k) (hbefore : ∀ p ∈ before.flatten, p.key.2 ∈ d.ids p.key.1) :
    ParentsAmong d referenceInsertOrder page := by
  intro k hk r hr ref href
  have hkinds : ∀ p ∈ pullKinds, p ∈ referenceInsertOrder := by decide
  rcases h before page after hpages ⟨k, r⟩ (mem_rowsOf.mp hr) ref href with hown | ⟨p, hp, rfl⟩
  · exact .inl (hclient ref.1 hown)
  · rcases List.mem_append.mp hp with hp | hp
    · exact .inl (hbefore p hp)
    · refine .inr ⟨hkinds p.1 (hpage p hp), ?_⟩
      exact List.mem_map_of_mem (mem_rowsOf.mpr hp)

/-! ## Runs -/

theorem PullState.page_eq (limit : Option Int) (s : PullState) :
    s.page limit = (ahead s.server.db s.cursor).take (clampLimit limit) :=
  pageRows_eq s.server.ok.nodup _ _

theorem PullState.request_full {s : PullState} {init : List AnyRow} {x : AnyRow}
    (hpage : s.page limit = init ++ [x]) (hfull : ¬(init ++ [x]).length < clampLimit limit) :
    s.request limit =
      { server := s.server
        cursor := rowCursor x
        pages := s.pages ++ [init ++ [x]]
        finished := false } := by
  rw [PullState.request, hpage, nextCursor_append, decide_eq_false hfull]

theorem PullState.resumes_request {s : PullState} (h : Resumes s.server.db s.cursor)
    (hopen : (s.request limit).finished = false) :
    Resumes s.server.db (s.request limit).cursor ∧
      ahead s.server.db (s.request limit).cursor =
        (ahead s.server.db s.cursor).drop (clampLimit limit) :=
  ahead_next s.server.ok.nodup s.server.unique h (clampLimit_pos limit)
    (of_decide_eq_false hopen)

/-- A pull that is not finished has a cursor the server can go on from. -/
theorem resumes_of_run {allowed : PullState → Prop} {server : Server} {s : PullState}
    (h : ReflTransGen (PullStep limit allowed) (startPull server) s) (hopen : s.finished = false) :
    Resumes s.server.db s.cursor := by
  induction h with
  | refl => exact .inl rfl
  | tail _ hstep ih =>
    cases hstep with
    | request hopen' => exact (PullState.resumes_request (ih hopen') hopen).1
    | write server hwrites =>
      refine (ih hopen).imp_right fun ⟨s, i, hcursor, hi⟩ => ⟨s, i, hcursor, ?_⟩
      obtain ⟨k, hk, hik⟩ := List.mem_flatMap.mp hi
      exact List.mem_flatMap.mpr ⟨k, hk, hwrites k hk hik⟩

/-- The parents of a page's rows that are ahead with it are on the page: they come first. -/
theorem known_page {n : Nat} {delivered : List AnyRow} {cursor : Option String × Option String}
    (hahead : ahead d cursor <:+ referenceStream d) {r : AnyRow}
    (hr : r ∈ (ahead d cursor).take n) {ref : Kind × String}
    (href : ref ∈ Db.references r.1 r.2) (h : Known client (delivered ++ ahead d cursor) ref) :
    Known client (delivered ++ (ahead d cursor).take n) ref := by
  refine h.imp_right fun ⟨p, hp, hkey⟩ => ⟨p, ?_, hkey⟩
  refine (List.mem_append.mp hp).elim (List.mem_append_left _) fun hp => List.mem_append_right _ ?_
  rw [← List.take_append_drop n (ahead d cursor)] at hp
  refine (List.mem_append.mp hp).resolve_right fun hlater => ?_
  have hkind := (mem_streamOf.mp (hahead.subset (List.mem_of_mem_take hr))).1
  obtain ⟨-, hrank⟩ := pullRank_parents r.1 hkind ref.1 (Db.mem_parents href)
  have horder := (pullRank_stream d).sublist hahead.sublist
  rw [← List.take_append_drop n (ahead d cursor)] at horder
  have hle := (List.pairwise_append.mp horder).2.2 r hr p hlater
  rw [← hkey] at hrank
  exact absurd hle (Nat.not_le.mpr hrank)

theorem consistent_append {s : PullState} (h : Consistent client s) {page : List AnyRow}
    (hpage : ∀ r ∈ page, ∀ ref ∈ Db.references r.1 r.2, Known client (s.pages.flatten ++ page) ref)
    {s' : PullState} (hs' : s'.pages = s.pages ++ [page]) : Consistent client s' := by
  intro before page' after hpages
  rcases List.eq_nil_or_concat after with rfl | ⟨after, last, rfl⟩
  · obtain ⟨hbefore, hlast⟩ := List.append_inj' (hs'.symm.trans hpages) rfl
    obtain ⟨rfl, -⟩ := List.cons.inj hlast
    rwa [← hbefore]
  · rw [hs', List.concat_eq_append, ← List.cons_append, ← List.append_assoc] at hpages
    exact h before page' after (List.append_inj' hpages rfl).1

/-- **A request** of a covered state. -/
theorem request_consistent {s : PullState} (hresumes : Resumes s.server.db s.cursor)
    (hopen : s.finished = false) (hcovered : Covered client s) (h : Consistent client s) :
    Consistent client (s.request limit) ∧ Covered client (s.request limit) := by
  have hpage := s.page_eq limit
  constructor
  · refine consistent_append h (fun r hr ref href => ?_) rfl
    rw [hpage] at hr ⊢
    exact known_page (ahead_suffix hresumes) hr href
      (hcovered hopen r (List.mem_of_mem_take hr) ref href)
  · intro hopen' r hr ref href
    have hrest := (PullState.resumes_request hresumes hopen').2
    have hall : (s.request limit).pages.flatten ++ ahead s.server.db (s.request limit).cursor =
        s.pages.flatten ++ ahead s.server.db s.cursor := by
      rw [hrest]
      show (s.pages ++ [s.page limit]).flatten ++ _ = _
      rw [List.flatten_append, List.flatten_singleton, hpage, List.append_assoc,
        List.take_append_drop]
    have hr : r ∈ ahead s.server.db (s.request limit).cursor := hr
    rw [hrest] at hr
    refine (hcovered hopen r (List.mem_of_mem_drop hr) ref href).mono fun p hp => ?_
    show p ∈ (s.request limit).pages.flatten ++ ahead s.server.db (s.request limit).cursor
    rwa [hall]

theorem covered_start (server : Server) : Covered client (startPull server) := by
  intro _ r hr ref href
  have hstream : ahead (startPull server).server.db (startPull server).cursor =
    referenceStream server.db := ahead_start server.db
  rw [hstream] at hr ⊢
  obtain ⟨pre, post, hpost⟩ := List.append_of_mem hr
  obtain ⟨p, hp, hkey⟩ := parentsBefore_stream server.ok pre r post hpost ref href
  refine .inr ⟨p, List.mem_append_right _ ?_, hkey⟩
  rw [hpost]
  exact List.mem_append_left _ hp

/-- **A run** whose transactions keep everything covered. -/
theorem run_consistent {server : Server} {s : PullState}
    (h : ReflTransGen (PullStep limit (Covered client)) (startPull server) s) :
    Consistent client s ∧ Covered client s := by
  induction h with
  | refl =>
    refine ⟨fun before page after hpages => ?_, covered_start server⟩
    exact absurd hpages.symm (List.append_ne_nil_of_right_ne_nil _ (List.cons_ne_nil _ _))
  | tail hrun hstep ih =>
    cases hstep with
    | request hopen => exact request_consistent (resumes_of_run hrun hopen) hopen ih.2 ih.1
    | write server hwrites hcovered => exact ⟨ih.1, hcovered⟩

/-- The requests alone hand out everything that is ahead. -/
theorem requests_drain (limit : Option Int) {s : PullState} (hresumes : Resumes s.server.db s.cursor)
    (hopen : s.finished = false) :
    ∃ s', ReflTransGen (PullStep limit fun _ => False) s s' ∧
      ∃ pages, s'.pages = s.pages ++ pages ∧ pages.flatten = ahead s.server.db s.cursor := by
  induction hn : (ahead s.server.db s.cursor).length using Nat.strong_induction_on generalizing s with
  | _ n ih =>
    have hpage := s.page_eq limit
    have hstep : PullStep limit (fun _ => False) s (s.request limit) := .request hopen
    by_cases hshort : (s.page limit).length < clampLimit limit
    · refine ⟨_, .single hstep, [s.page limit], rfl, ?_⟩
      rw [hpage, List.length_take] at hshort
      rw [List.flatten_singleton, hpage, List.take_of_length_le]
      omega
    · have hopen' : (s.request limit).finished = false := decide_eq_false hshort
      obtain ⟨hresumes', hrest⟩ := PullState.resumes_request hresumes hopen'
      have hfewer : (ahead s.server.db (s.request limit).cursor).length < n := by
        have hpos := clampLimit_pos limit
        rw [hpage, List.length_take] at hshort
        rw [hrest, List.length_drop]
        omega
      obtain ⟨s', hrun, pages, hpages, hflat⟩ := ih _ hfewer hresumes' hopen' rfl
      refine ⟨s', .head hstep hrun, s.page limit :: pages, ?_, ?_⟩
      · rw [hpages]
        exact List.append_assoc _ _ _
      · have hflat : pages.flatten = ahead s.server.db (s.request limit).cursor := hflat
        rw [List.flatten_cons, hflat, hrest, hpage, List.take_append_drop]

/-- **Uncovered** is lost: the requests alone hand out a row without its parent. -/
theorem uncovered_inconsistent (limit : Option Int) {s : PullState} (hresumes : s.finished = false →
    Resumes s.server.db s.cursor) (h : ¬Covered client s) :
    ∃ s', ReflTransGen (PullStep limit fun _ => False) s s' ∧ ¬Consistent client s' := by
  unfold Covered at h
  push Not at h
  obtain ⟨hopen, r, hr, ref, href, hunknown⟩ := h
  obtain ⟨s', hrun, pages, hpages, hflat⟩ := requests_drain limit (hresumes hopen) hopen
  refine ⟨s', hrun, fun hconsistent => hunknown ?_⟩
  rw [← hflat, List.mem_flatten] at hr
  obtain ⟨page, hpage, hr⟩ := hr
  obtain ⟨before, after, rfl⟩ := List.append_of_mem hpage
  have hknown := hconsistent (s.pages ++ before) page after
    (by rw [hpages, List.append_assoc]) r hr ref href
  refine hknown.mono fun p hp => ?_
  rw [← hflat]
  simp only [List.flatten_append, List.flatten_cons, List.mem_append] at hp ⊢
  tauto

/-- **A pull of a server that is written** delivers no row before the rows it refers to as long as
every transaction leaves the rows that are ahead with their parents; once one does not, the next
requests alone deliver a row without its parent. -/
theorem pull_stays_consistent (limit : Option Int) (client : Db) (server : Server) :
    (∀ s, ReflTransGen (PullStep limit (Covered client)) (startPull server) s →
      Consistent client s) ∧
    (∀ s, ReflTransGen (PullStep limit fun _ => True) (startPull server) s → ¬Covered client s →
      ∃ s', ReflTransGen (PullStep limit fun _ => False) s s' ∧ ¬Consistent client s') :=
  ⟨fun _ h => (run_consistent h).1, fun _ h => uncovered_inconsistent limit (resumes_of_run h)⟩

/-! ## A batch pushed between two pages -/

/-- Customers stamped by one bulk edit. -/
def crowd (n : Nat) : List Customer := (List.range n).map fun i =>
  { id := String.ofList (List.replicate (i + 1) 'c')
    name := "Anna"
    surname := none
    consultantNumber := none
    address := none
    searchLc := none
    createdAt := "2026-01-01T00:00:00+00:00"
    updatedAt := "2026-01-02T00:00:00+00:00" }

/-- The first batch of a product. -/
def lot : Batch where
  id := "b"
  productId := "p"
  warehouseId := "w"
  expiry := none
  priceCents := none
  costCents := none
  location := none
  comment := none
  name := none
  quantity := 0
  isLegacy := 0
  createdAt := "2026-01-03T00:00:00+00:00"
  updatedAt := "2026-01-03T00:00:00+00:00"

/-- What another device pushes: the batch, its product and its warehouse. -/
def firstBatch : Db where
  warehouses := [{
    id := "w"
    name := "Main"
    address := none
    currency := "RUB"
    createdAt := "2026-01-03T00:00:00+00:00"
    updatedAt := "2026-01-03T00:00:00+00:00"
    deletedAt := none }]
  products := [blankProduct "p" "2026-01-03T00:00:00+00:00"]
  batches := [lot]

theorem crowd_id {n : Nat} {i : String} (h : i ∈ (crowd n).map Customer.id) :
    i.toList.head? = some 'c' := by
  unfold crowd at h
  rw [List.map_map] at h
  obtain ⟨m, -, rfl⟩ := List.mem_map.mp h
  show (String.ofList (List.replicate (m + 1) 'c')).toList.head? = some 'c'
  rw [String.toList_ofList, List.replicate_succ, List.head?_cons]

theorem nodup_crowd (n : Nat) : ((crowd n).map Customer.id).Nodup := by
  unfold crowd
  rw [List.map_map]
  refine List.nodup_range.map fun m m' heq => ?_
  have hlength := congrArg String.length heq
  simpa using hlength

/-- A database without customers takes the crowd in. -/
theorem crowd_ok {d : Db} (hd : d.Ok) (hnone : d.customers = []) (n : Nat) :
    ({ d with customers := crowd n } : Db).Ok := by
  have hset : { d with customers := crowd n } = d.set .customer (crowd n) := rfl
  rw [hset, Db.ok_set_iff hd]
  · exact ⟨nodup_crowd n, trivial, fun _ _ _ href => absurd href List.not_mem_nil⟩
  · intro i hi
    have hids : d.ids .customer = d.customers.map Customer.id := rfl
    rw [hids, hnone] at hi
    exact absurd hi List.not_mem_nil

/-- The server when the pull starts. -/
def crowded (n : Nat) : Server where
  db := { customers := crowd n }
  ok := crowd_ok (d := {}) (by decide) rfl n
  unique := by
    show ([] ++ ([] ++ ((crowd n).map Customer.id ++ []))).Nodup
    simpa using nodup_crowd n

/-- The server after another device has pushed. -/
def stocked (n : Nat) : Server where
  db := { firstBatch with customers := crowd n }
  ok := crowd_ok (d := firstBatch) (by decide) rfl n
  unique := by
    show (["w", "p"] ++ ((crowd n).map Customer.id ++ ["b"])).Nodup
    have hapart : ∀ i ∈ ["w", "p", "b"], i.toList.head? ≠ some 'c' := by decide
    refine List.nodup_append.mpr ⟨by decide, List.nodup_append.mpr
      ⟨nodup_crowd n, by decide, ?_⟩, ?_⟩
    · rintro i hi _ hj rfl
      exact hapart i (List.mem_cons_of_mem _ (List.mem_cons_of_mem _ hj)) (crowd_id hi)
    · rintro i hi j hj rfl
      rcases List.mem_append.mp hj with hj | hj
      · exact hapart i (List.mem_append_left ["b"] hi) (crowd_id hj)
      · rw [List.mem_singleton.mp hj] at hi
        exact absurd hi (by decide)

/-- The push is a merge like any other. -/
theorem firstBatch_pushed (n : Nat) :
    ∃ report, applyMerge Driver.strict "2026-01-03T00:00:00+00:00" (crowded n).db
      ((referenceStream firstBatch).map AnyRow.record) = .ok ((stocked n).db, report) := by
  have hreceive : (crowded n).db.receive (fun k => (firstBatch.get k, [])) = (stocked n).db := by
    refine Db.ext_get fun k => ?_
    rw [Db.get_receive]
    cases k with
    | customer => exact List.append_nil _
    | warehouse | product | dictionary | batch | sale | operation | cashMovement => rfl
  refine ⟨_, (applyMerge_ok_iff (crowded n).ok).mpr ⟨fun k => (firstBatch.get k, []), fun k => ?_,
    ?_, recomputeDerived_ok_iff.mpr ⟨?_, ?_⟩, rfl⟩⟩
  · cases k <;> rfl
  · rw [hreceive]
    exact (stocked n).ok
  · rw [hreceive]
    intro p hp
    cases List.mem_singleton.mp hp
    rfl
  · rw [hreceive]
    rfl

/-- The customers are handed out between the batch's parents and the batch. -/
theorem crowd_stream (n : Nat) :
    ∃ parents, (referenceStream (crowded n).db).length = n ∧
      (∀ r ∈ referenceStream (crowded n).db, r.1 = Kind.customer) ∧
      referenceStream (stocked n).db =
        parents ++ (referenceStream (crowded n).db ++ [⟨.batch, lot⟩]) := by
  have hcrowd : referenceStream (crowded n).db =
      (inCursorOrder .customer (crowd n)).map (Sigma.mk Kind.customer) :=
    List.append_nil _
  rw [hcrowd]
  refine ⟨referenceStream { firstBatch with batches := [] }, ?_, ?_, rfl⟩
  · rw [List.length_map, inCursorOrder, List.length_insertionSort, crowd, List.length_map,
      List.length_range]
  · intro r hr
    obtain ⟨row, -, rfl⟩ := List.mem_map.mp hr
    rfl

/-- The batch is pushed when the customers are delivered: its product is behind the cursor. -/
theorem pushed_uncovered : ∃ s, s.finished = false ∧ ¬Covered {} s ∧
    ReflTransGen (PullStep none fun _ => True) (startPull (crowded defaultPullLimit)) s := by
  obtain ⟨parents, hlength, hkind, hstream⟩ := crowd_stream defaultPullLimit
  have hfull : ¬(referenceStream (crowded defaultPullLimit).db).length < clampLimit none :=
    Nat.not_lt.mpr (le_of_eq hlength.symm)
  have hpage : (startPull (crowded defaultPullLimit)).page none =
      referenceStream (crowded defaultPullLimit).db := by
    rw [PullState.page_eq]
    show (ahead (crowded defaultPullLimit).db (none, none)).take _ = _
    rw [ahead_start]
    exact List.take_of_length_le (le_of_eq hlength)
  obtain ⟨init, x, hrows⟩ := Lib.Paging.exists_last (clampLimit_pos none) hfull
  rw [hrows] at hpage hfull hstream hkind
  have hwrites : (crowded defaultPullLimit).Writes (stocked defaultPullLimit) := by
    intro k _ i hi
    cases k with
    | customer => exact hi
    | warehouse | product | dictionary | batch | sale | operation | cashMovement =>
      exact absurd hi List.not_mem_nil
  have hrequest : PullStep none (fun _ => True) (startPull (crowded defaultPullLimit)) _ :=
    .request rfl
  rw [PullState.request_full hpage hfull] at hrequest
  refine ⟨_, rfl, ?_, .tail (.single hrequest) (.write _ hwrites trivial)⟩
  have hahead : ahead (stocked defaultPullLimit).db (rowCursor x) = [⟨.batch, lot⟩] := by
    have hsplit : referenceStream (stocked defaultPullLimit).db =
        (parents ++ init) ++ x :: [⟨.batch, lot⟩] := by
      rw [hstream, List.append_assoc, List.append_assoc, List.singleton_append]
    exact ahead_rowCursor (stocked defaultPullLimit).ok.nodup (stocked defaultPullLimit).unique hsplit
  intro hcovered
  rw [Covered, hahead] at hcovered
  rcases hcovered rfl _ (List.mem_singleton_self _) (.product, "p") List.mem_cons_self with
    hmem | ⟨p, hp, hkey⟩
  · exact absurd hmem List.not_mem_nil
  · have hproduct : p.1 = Kind.product := congrArg Prod.fst hkey
    rcases List.mem_append.mp hp with hp | hp
    · rw [hkind p (List.append_nil (init ++ [x]) ▸ hp)] at hproduct
      cases hproduct
    · cases List.mem_singleton.mp hp
      cases hproduct

/-- **A batch pushed between two pages** is handed out without its product. -/
theorem not_pull_consistent : ¬∀ (limit : Option Int) (client : Db) (server : Server)
    (s : PullState), ReflTransGen (PullStep limit fun _ => True) (startPull server) s →
      Consistent client s := by
  intro hall
  obtain ⟨s, hopen, huncovered, hrun⟩ := pushed_uncovered
  obtain ⟨s', hlater, hlost⟩ :=
    uncovered_inconsistent none (fun _ => resumes_of_run hrun hopen) huncovered
  refine hlost (hall none {} (crowded defaultPullLimit) s' (hrun.trans ?_))
  refine ReflTransGen.mono (fun s₁ s₂ h => ?_) _ _ hlater
  cases h with
  | request hopen => exact .request hopen
  | write server hwrites hno => exact hno.elim

end MyOriShop
