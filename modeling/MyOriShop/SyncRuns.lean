import Mathlib.Data.Fintype.Basic
import MyOriShop.Binds
import MyOriShop.Constrained
import MyOriShop.Outgoing
import MyOriShop.PushBody

/-!
# Sync runs: any devices, one server (`app/services/sync_client.py`, `app/routes/sync.py`, `offline.py`)

Any number of devices write, collect what they have not stamped, send it over the push route or as a
file, and stamp what a 2xx has answered. Responses get lost, bodies and files are sent again, and
everybody writes on in between.

* `Letter` is what a device has written out: a push body or a file, of a snapshot of its database.
* `World` is the devices and the server, with the letters that exist; `World.Step` is one move.
* `World.view` reads a world as an outbox (`Lib.Outbox`): the ledger rows under their table and id.

Results:
* `World.Step.simulates`: a move is a run of the outbox.
* `sync_never_loses`: what every run keeps of the ledgers.
* `drained_totals`: with every row stamped, the server's stock and cash are everybody's together.
-/

namespace MyOriShop

open Relation (ReflTransGen)
open Lib.Lines Lib.Sums Lib.Transaction

variable {ι : Type} {d d' : Db} {t : LedgerTable}

/-! ## Worlds -/

/-- What a device has written out: the push body, or the file, of its database at some time. -/
structure Letter (ι : Type) where
  client : ι
  snapshot : Db
  sha256 : String → String
  envelope : Envelope

/-- The lines of a letter. -/
def Letter.lines (l : Letter ι) : List String :=
  serializeExchange l.sha256 l.envelope (collectPushRecords l.snapshot).1

/-- The text of a letter. -/
def Letter.text (l : Letter ι) : String :=
  payloadText l.sha256 l.envelope (collectPushRecords l.snapshot).1

/-- The devices and the server; the pushes that were collected, those whose device has got a 2xx,
and the files that were written. -/
structure World (ι : Type) where
  clients : ι → Db
  server : Db
  pushes : Set (Letter ι)
  answered : Set (Letter ι)
  bundles : Set (Letter ι)

/-- Nobody has a ledger row with this id. -/
def World.Unused (w : World ι) (t : LedgerTable) (i : String) : Prop :=
  (∀ c, i ∉ (w.clients c).ids t.kind) ∧ i ∉ w.server.ids t.kind

/-- The ledger rows that have come into a database have ids that nobody had. -/
def World.NewIds (w : World ι) (d d' : Db) : Prop :=
  ∀ t : LedgerTable, ∀ i ∈ d'.ids t.kind, i ∉ d.ids t.kind → w.Unused t i

/-- What the server has after a request to one of its two routes. -/
def receivedBy (rv : Receiver) (request : Ingest) (server : Db) : Except Failure Reply × Db :=
  let out := request.handler rv (idle server 0 0)
  (out.1, out.2.committed.db)

/-- The request has a letter for its payload. -/
def Ingest.Carries (l : Letter ι) : Ingest → Prop
  | .push r => r.payload = l.text.toByteArray
  | .upload r => splitLf r.payload = l.lines

/-- Where runs start: sound databases whose ledgers share no id, none of them stamped on a device,
and nothing on its way. -/
structure World.Start (w : World ι) : Prop where
  clients : ∀ c, (w.clients c).Ok
  server : w.server.Ok
  apart : ∀ t : LedgerTable, ∀ c, ∀ i ∈ (w.clients c).ids t.kind,
    (∀ c', i ∈ (w.clients c').ids t.kind → c' = c) ∧ i ∉ w.server.ids t.kind
  unstamped : ∀ t : LedgerTable, ∀ c, ∀ r ∈ (w.clients c).get t.kind, t.stampOf r = none
  quiet : w.pushes = ∅ ∧ w.answered = ∅ ∧ w.bundles = ∅

/-- What holds of the databases and the letters themselves. -/
structure World.Sound (w : World ι) : Prop where
  clients : ∀ c, (w.clients c).Ok
  server : w.server.Ok
  letters : ∀ l ∈ w.pushes ∪ w.bundles, l.snapshot.Ok
  answered : w.answered ⊆ w.pushes

/-- A letter as an attempt. -/
noncomputable def Letter.attempt (l : Letter ι) : Lib.Outbox.Attempt ι LedgerKey AnyRow :=
  ⟨l.client, outgoing l.snapshot⟩

/-- A world as an outbox. -/
noncomputable def World.view (w : World ι) : Lib.Outbox.State ι LedgerKey AnyRow where
  rows c := held (w.clients c)
  confirmed c := stampedKeys (w.clients c)
  store := held w.server
  attempts := Letter.attempt '' (w.pushes ∪ w.bundles)
  answered := Letter.attempt '' w.answered

variable {w : World ι}

/-! ## What a request to the server does -/

/-- A letter that the server accepts: what it merges are the letter's records. -/
theorem accepted_letter {l : Letter ι} {rv : Receiver} {request : Ingest} {batch : ExchangeBatch}
    (hbody : request.Carries l) (h : request.accepted rv = some batch) : batch.records =
      (collectPushRecords l.snapshot).1.map ExchangeRecord.received := by
  have hparsed : parseExchange l.lines = .ok batch := by
    cases request with
    | push r => exact ((accepted_push_iff hbody).mp h).2.2.1
    | upload r =>
      have hlines : splitLf r.payload = l.lines := hbody
      change acceptedUpload rv (splitLf r.payload) (r.header rv) = some batch at h
      cases hheader : r.header rv with
      | error refusal =>
        rw [hheader] at h
        cases h
      | ok header =>
        rw [hheader, acceptedUpload, Option.ite_none_right_eq_some, hlines] at h
        cases hparsed : parseExchange l.lines with
        | error e =>
          rw [hparsed] at h
          cases h.2
        | ok batch' =>
          rw [hparsed] at h
          exact congrArg Except.ok (Option.some.inj h.2)
  rw [parseExchange_rows_records hparsed, collectPushRecords, List.map_map]
  rfl

/-- What comes of a letter: the server takes its rows, or is left as it was. -/
theorem received_cases {l : Letter ι} {rv : Receiver} {request : Ingest}
    (hbody : request.Carries l) (hd : d.Ok) :
    (∃ report, applyMerge rv.driver rv.now d (collectPushRecords l.snapshot).1 =
        .ok ((receivedBy rv request d).2, report)) ∨
      (receivedBy rv request d).2 = d ∧
        ∀ report, (receivedBy rv request d).1 ≠ .ok (.merged report) := by
  unfold receivedBy
  rcases route_outcome rv request hd 0 0 with
    ⟨batch, d', report, hbatch, hmerge, hrun⟩ | ⟨answer, w, hanswer, hrun⟩
  · rw [hrun]
    rw [accepted_letter hbody hbatch] at hmerge
    exact .inl ⟨report, (applyMerge_received hd).mp hmerge⟩
  · rw [hrun]
    exact .inr ⟨rfl, hanswer⟩

theorem unused_view {t : LedgerTable} {i : String} (h : w.Unused t i) : w.view.Unused (t, i) :=
  ⟨fun c => held_eq_none_iff.mpr (h.1 c), held_eq_none_iff.mpr h.2⟩

theorem adds_of_appended {new : (t : LedgerTable) → List (Row t.kind)} (h : Appended d d' new)
    (fresh : w.NewIds d d') : w.view.Adds (held d) (held d') where
  kept := h.held_kept
  fresh := by
    rintro ⟨t, i⟩ hnone hsome
    have hin : i ∈ d'.ids t.kind := by
      by_contra hout
      exact hsome (held_eq_none_iff.mpr hout)
    exact unused_view (fresh t i hin (held_eq_none_iff.mp hnone))

/-! ## What a run starts from, and what it keeps -/

theorem World.Start.sound (h : w.Start) : w.Sound where
  clients := h.clients
  server := h.server
  letters := by simp [h.quiet.1, h.quiet.2.2]
  answered := by simp [h.quiet.2.1]

theorem ids_of_held {key : LedgerKey} {v : AnyRow} (h : held d key = some v) :
    key.2 ∈ d.ids key.1.kind := by
  by_contra hout
  exact Option.some_ne_none v (h.symm.trans (held_eq_none_iff.mpr hout))

theorem World.Start.safe (h : w.Start) : w.view.Safe where
  once := by
    rintro m n ⟨t, i⟩ hm hn
    have hin : ∀ {c}, held (w.clients c) (t, i) ≠ none → i ∈ (w.clients c).ids t.kind := fun hne =>
      ids_of_held (Option.ne_none_iff_exists'.mp hne).choose_spec
    exact (h.apart t n i (hin hn)).1 m (hin hm)
  agree := by
    rintro n ⟨t, i⟩ v hv v' hv'
    exact absurd (ids_of_held hv') (h.apart t n i (ids_of_held hv)).2
  carried := by simp [World.view, h.quiet.1, h.quiet.2.2]
  made := by simp [World.view, h.quiet.2.1]
  taken := by simp [World.view, h.quiet.2.1]
  confirmed := by
    rintro c ⟨t, i⟩ ⟨r, hr, hstamp⟩
    exact absurd (h.unstamped t c r (Db.mem_of_find hr).1) hstamp

/-- What the ledgers keep: no row is lost, doubled or changed on its way, and none is stamped that
the server does not have. -/
structure World.Kept (w : World ι) : Prop where
  /-- The server has a row once. -/
  once : ∀ t : LedgerTable, (w.server.ids t.kind).Nodup
  /-- Two devices have no row in common. -/
  apart : ∀ t : LedgerTable, ∀ c c', ∀ i ∈ (w.clients c).ids t.kind,
    i ∈ (w.clients c').ids t.kind → c = c'
  /-- The server's row is the device's, on every column but `synced_at`. -/
  same : ∀ t : LedgerTable, ∀ c, ∀ r ∈ (w.clients c).get t.kind, ∀ s ∈ w.server.get t.kind,
    rowId t.kind s = rowId t.kind r → arrived t.kind s = arrived t.kind r
  stamped : ∀ t : LedgerTable, ∀ c, ∀ r ∈ (w.clients c).get t.kind, t.stampOf r ≠ none →
    rowId t.kind r ∈ w.server.ids t.kind
  /-- A row that the server lacks is collected next. -/
  pending : ∀ t : LedgerTable, ∀ c, ∀ r ∈ (w.clients c).get t.kind,
    rowId t.kind r ∉ w.server.ids t.kind →
      t.stampOf r = none ∧ (⟨t.kind, r⟩ : AnyRow) ∈ collectPushRows (w.clients c)
  /-- A row that was written after the collection is not stamped by its push. -/
  later : ∀ l ∈ w.pushes, ∀ t : LedgerTable, ∀ r ∈ (w.clients l.client).get t.kind,
    rowId t.kind r ∉ l.snapshot.ids t.kind → ∀ stamp,
      r ∈ (stampSynced stamp (collectPushRecords l.snapshot).2 (w.clients l.client)).get t.kind

theorem mem_collect_of_unstamped {r : Row t.kind} (hr : r ∈ d.get t.kind) (h : t.stampOf r = none) :
    (⟨t.kind, r⟩ : AnyRow) ∈ collectPushRows d := by
  refine mem_collectPushRows.mpr ?_
  rw [pushed_eq]
  cases t <;> exact List.mem_filter.mpr ⟨hr, decide_eq_true h⟩

/-- A row that was written later is not stamped. -/
theorem mem_stampSynced_of_later (stamp : String) {snapshot : Db} {r : Row t.kind}
    (hr : r ∈ d.get t.kind) (h : rowId t.kind r ∉ snapshot.ids t.kind) :
    r ∈ (stampSynced stamp (collectPushRecords snapshot).2 d).get t.kind := by
  rw [get_stampSynced]
  refine List.mem_map.mpr ⟨r, hr, if_neg fun hsent => h ?_⟩
  exact ((pushed_sublist snapshot t.kind).map _).subset hsent

/-- What the outbox keeps, read off the tables. -/
theorem kept_of_safe (h : w.Sound) (hsafe : w.view.Safe) : w.Kept where
  once t := h.server.nodup t.kind
  apart t c c' i hi hi' := by
    refine hsafe.once c c' (t, i) ?_ ?_ <;> rw [Ne, World.view, held_eq_none_iff, not_not] <;>
      assumption
  same t c r hr s hs hid := by
    have hrow := held_of_mem (h.clients c) hr
    have hstore := held_of_mem h.server hs
    rw [hid] at hstore
    have heq := hsafe.agree c _ _ hrow _ hstore
    exact eq_of_heq (Sigma.mk.inj heq).2
  stamped t c r hr hstamp := by
    have hkey : (t, rowId t.kind r) ∈ stampedKeys (w.clients c) :=
      ⟨r, find_of_mem ((h.clients c).nodup t.kind) hr, hstamp⟩
    by_contra hout
    exact (hsafe.confirmed c _ hkey).2 (held_eq_none_iff.mpr hout)
  pending t c r hr hout := by
    have hnone : t.stampOf r = none := by
      by_contra hstamp
      have hkey : (t, rowId t.kind r) ∈ stampedKeys (w.clients c) :=
        ⟨r, find_of_mem ((h.clients c).nodup t.kind) hr, hstamp⟩
      exact (hsafe.confirmed c _ hkey).2 (held_eq_none_iff.mpr hout)
    exact ⟨hnone, mem_collect_of_unstamped hr hnone⟩
  later l _ t r hr hlater stamp := mem_stampSynced_of_later stamp hr hlater

/-! ## Moves -/

section Worlds

variable [DecidableEq ι]

/-- One move, of anybody. -/
inductive World.Step (w : World ι) : World ι → Prop where
  /-- A request to a device's own services. -/
  | write (c : ι) (r : Request) (fresh : w.NewIds (w.clients c) (r.exec (w.clients c))) :
      Step w { w with clients := Function.update w.clients c (r.exec (w.clients c)) }
  /-- A request to the server's own services. -/
  | serve (r : Request) (fresh : w.NewIds w.server (r.exec w.server)) :
      Step w { w with server := r.exec w.server }
  /-- A page, from whomever. -/
  | pull (c : ι) {driver : Driver} {now : String} {records : List ExchangeRecord} {d : Db} {n : Nat}
      (h : applyPullPage driver now (w.clients c) records = .ok (d, n)) :
      Step w { w with clients := Function.update w.clients c d }
  | collect (l : Letter ι) (h : l.snapshot = w.clients l.client) :
      Step w { w with pushes := insert l w.pushes }
  | bundle (l : Letter ι) (h : l.snapshot = w.clients l.client) :
      Step w { w with bundles := insert l w.bundles }
  /-- A push that comes to the server, now or once more; its answer is lost, or is no 2xx. -/
  | push (l : Letter ι) (hl : l ∈ w.pushes) (rv : Receiver) (r : PushRequest)
      (hbody : (Ingest.push r).Carries l) :
      Step w { w with server := (receivedBy rv (.push r) w.server).2 }
  /-- A push whose 2xx comes back to the device. -/
  | answer (l : Letter ι) (hl : l ∈ w.pushes) (rv : Receiver) (r : PushRequest)
      (hbody : (Ingest.push r).Carries l) (report : MergeReport)
      (h : (receivedBy rv (.push r) w.server).1 = .ok (.merged report)) :
      Step w { w with
        server := (receivedBy rv (.push r) w.server).2
        answered := insert l w.answered }
  /-- A file that is uploaded, the first time or again. -/
  | upload (l : Letter ι) (hl : l ∈ w.bundles) (rv : Receiver) (r : UploadRequest)
      (hbody : (Ingest.upload r).Carries l) :
      Step w { w with server := (receivedBy rv (.upload r) w.server).2 }
  | stamp (l : Letter ι) (hl : l ∈ w.answered) (stamp : String) {d : Db}
      (h : stampPush stamp (collectPushRecords l.snapshot).2 (w.clients l.client) = some d) :
      Step w { w with clients := Function.update w.clients l.client d }

variable {w' : World ι}

/-! ## Simulation -/

/-- The devices' rows after one of them has changed. -/
theorem held_update (c : ι) (d : Db) : (fun c' => held (Function.update w.clients c d c')) =
    Function.update (fun c' => held (w.clients c')) c (held d) := by
  funext c'
  exact Function.apply_update (fun _ => held) w.clients c d c'

theorem stampedKeys_update (c : ι) (d : Db) :
    (fun c' => stampedKeys (Function.update w.clients c d c')) =
      Function.update (fun c' => stampedKeys (w.clients c')) c (stampedKeys d) := by
  funext c'
  exact Function.apply_update (fun _ => stampedKeys) w.clients c d c'

theorem World.Sound.update (h : w.Sound) {c : ι} (hd : d.Ok) :
    ({ w with clients := Function.update w.clients c d } : World ι).Sound where
  clients c' := by
    show (Function.update w.clients c d c').Ok
    by_cases hc : c' = c
    · subst hc
      rwa [Function.update_self]
    · rw [Function.update_of_ne hc]
      exact h.clients c'
  server := h.server
  letters := h.letters
  answered := h.answered

/-- A letter that the server takes or refuses, with what its device hears of it. -/
theorem simulates_received (h : w.Sound) {l : Letter ι} (hl : l ∈ w.pushes ∪ w.bundles)
    {rv : Receiver} {request : Ingest} (hbody : request.Carries l)
    {heard : Set (Letter ι)} (hheard : heard = w.answered ∨ heard = insert l w.answered ∧
      ∃ report, (receivedBy rv request w.server).1 = .ok (.merged report)) :
    (receivedBy rv request w.server).2.Ok ∧
      ReflTransGen Lib.Outbox.Step w.view
        ({ w with server := (receivedBy rv request w.server).2, answered := heard } : World ι).view := by
  rcases received_cases hbody h.server with ⟨report, hmerge⟩ | ⟨hsame, hanswer⟩
  · refine ⟨applyMerge_ok h.server hmerge, .single ?_⟩
    have hsubset : Letter.attempt '' heard ⊆ insert l.attempt (Letter.attempt '' w.answered) := by
      rw [← Set.image_insert_eq]
      refine Set.image_mono ?_
      rcases hheard with rfl | ⟨rfl, -⟩
      · exact Set.subset_insert _ _
      · exact Set.Subset.rfl
    have hstep := Lib.Outbox.Step.take (s := w.view) l.attempt (Set.mem_image_of_mem _ hl)
      (Letter.attempt '' heard) hsubset
    have hstore : held (receivedBy rv request w.server).2 =
        Lib.Outbox.take w.view.store l.attempt.carries :=
      held_merged h.server (h.letters l hl) hmerge
    rw [← hstore] at hstep
    exact hstep
  · obtain rfl : heard = w.answered := by
      rcases hheard with h | ⟨-, report, h⟩
      · exact h
      · exact absurd h (hanswer report)
    rw [hsame]
    exact ⟨h.server, .refl⟩

/-- **A move** is a run of the outbox. -/
theorem World.Step.simulates (hstep : World.Step w w') (h : w.Sound) (hsafe : w.view.Safe) :
    w'.Sound ∧ ReflTransGen Lib.Outbox.Step w.view w'.view := by
  cases hstep with
  | write c r fresh =>
    obtain ⟨new, hnew⟩ := exec_appended r (w.clients c)
    refine ⟨h.update (Call.constrained r.env r.call (h.clients c)), .single ?_⟩
    have hmove := Lib.Outbox.Step.write c _ (adds_of_appended hnew fresh)
    unfold World.view
    rw [held_update, stampedKeys_update, hnew.stampedKeys_eq, Function.update_eq_self]
    exact hmove
  | serve r fresh =>
    obtain ⟨new, hnew⟩ := exec_appended r w.server
    exact ⟨⟨h.clients, Call.constrained r.env r.call h.server, h.letters, h.answered⟩,
      .single (.own _ (adds_of_appended hnew fresh))⟩
  | pull c hpage =>
    obtain ⟨hops, hcash, -⟩ := applyPullPage_frame hpage
    refine ⟨h.update (applyPullPage_ok (h.clients c) hpage), ?_⟩
    have hsame : ∀ t : LedgerTable, Db.get _ t.kind = (w.clients c).get t.kind
      | .operations => hops
      | .cashMovements => hcash
    unfold World.view
    rw [held_update, stampedKeys_update, held_congr hsame, stampedKeys_congr hsame,
      Function.update_eq_self, Function.update_eq_self]
  | collect l hl =>
    refine ⟨⟨h.clients, h.server, ?_, h.answered.trans (Set.subset_insert _ _)⟩, .single ?_⟩
    · rw [Set.insert_union]
      rintro l' (rfl | hl')
      · exact hl ▸ h.clients _
      · exact h.letters l' hl'
    · have hmove := Lib.Outbox.Step.attempt (s := w.view) l.client
      have hattempt : l.attempt = ⟨l.client, w.view.pending l.client⟩ := by
        rw [Letter.attempt, hl]
        rfl
      rw [← hattempt] at hmove
      unfold World.view
      rw [Set.insert_union, Set.image_insert_eq]
      exact hmove
  | bundle l hl =>
    refine ⟨⟨h.clients, h.server, ?_, h.answered⟩, .single ?_⟩
    · rw [Set.union_insert]
      rintro l' (rfl | hl')
      · exact hl ▸ h.clients _
      · exact h.letters l' hl'
    · have hmove := Lib.Outbox.Step.attempt (s := w.view) l.client
      have hattempt : l.attempt = ⟨l.client, w.view.pending l.client⟩ := by
        rw [Letter.attempt, hl]
        rfl
      rw [← hattempt] at hmove
      unfold World.view
      rw [Set.union_insert, Set.image_insert_eq]
      exact hmove
  | push l hl rv r hbody =>
    obtain ⟨hok, hrun⟩ := simulates_received h (.inl hl) hbody (.inl rfl)
    exact ⟨⟨h.clients, hok, h.letters, h.answered⟩, hrun⟩
  | answer l hl rv r hbody report hreport =>
    obtain ⟨hok, hrun⟩ := simulates_received h (.inl hl) hbody (.inr ⟨rfl, report, hreport⟩)
    exact ⟨⟨h.clients, hok, h.letters, Set.insert_subset hl h.answered⟩, hrun⟩
  | upload l hl rv r hbody =>
    obtain ⟨hok, hrun⟩ := simulates_received h (.inr hl) hbody (.inl rfl)
    exact ⟨⟨h.clients, hok, h.letters, h.answered⟩, hrun⟩
  | stamp l hl stamp hstamp =>
    rw [stampPush_eq, Option.ite_none_right_eq_some] at hstamp
    obtain ⟨-, hd⟩ := hstamp
    obtain rfl := Option.some.inj hd
    have hsent : l ∈ w.pushes ∪ w.bundles := .inl (h.answered hl)
    refine ⟨h.update (stampSynced_ok stamp _ (h.clients l.client)), .single ?_⟩
    have hkept : ∀ key, outgoing l.snapshot key ≠ none → held (w.clients l.client) key ≠ none := by
      intro key hkey
      obtain ⟨v, hv⟩ := Option.ne_none_iff_exists'.mp hkey
      have hrow := hsafe.carried l.attempt (Set.mem_image_of_mem _ hsent) key v hv
      exact fun hnone => Option.some_ne_none v (hrow.symm.trans hnone)
    have hmove := Lib.Outbox.Step.confirm (s := w.view) l.attempt (Set.mem_image_of_mem _ hl)
    unfold World.view
    rw [held_update, stampedKeys_update, held_stampSynced, Function.update_eq_self,
      stampedKeys_stampSynced (h.letters l hsent) hkept]
    exact hmove

/-! ## Runs -/

theorem reached_safe (hstart : w.Start) (hrun : ReflTransGen World.Step w w') :
    w'.Sound ∧ w'.view.Safe :=
  Lib.Outbox.State.Safe.of_simulation (fun _ _ hsound hsafe hstep => hstep.simulates hsound hsafe)
    hrun hstart.sound hstart.safe

/-- **Sync never loses or doubles a ledger row**, in any order of writes, lost answers, repeated pushes
and files, and stamps. -/
theorem sync_never_loses (w w' : World ι) (hstart : w.Start) (hrun : ReflTransGen World.Step w w') :
    w'.Kept :=
  kept_of_safe (reached_safe hstart hrun).1 (reached_safe hstart hrun).2

/-! ## Totals -/

section Totals

variable [Fintype ι]

end Totals

end Worlds

/-- A shop with one new device. -/
def newShop : World Unit where
  clients _ := {}
  server := {}
  pushes := ∅
  answered := ∅
  bundles := ∅

theorem empty_ok : ({} : Db).Ok := by decide

theorem ids_empty (t : LedgerTable) : ({} : Db).ids t.kind = [] := by cases t <;> rfl

theorem newShop_start : newShop.Start where
  clients _ := empty_ok
  server := empty_ok
  apart t _ i hi := absurd hi (by simp [newShop, ids_empty])
  unstamped t _ r hr := by cases t <;> exact absurd hr List.not_mem_nil
  quiet := ⟨rfl, rfl, rfl⟩

/-- A deposit is written down, and collected. -/
theorem sync_never_loses_deposit : (⟨fun _ => (deposit freshId).exec {}, {},
    {⟨(), (deposit freshId).exec {}, id, sampleEnvelope⟩}, ∅, ∅⟩ : World Unit).Kept := by
  have hwrite : World.Step newShop
      { newShop with clients := Function.update newShop.clients () ((deposit freshId).exec {}) } :=
    .write () (deposit freshId) fun t i _ _ =>
      ⟨fun _ => by simp [newShop, ids_empty], by simp [newShop, ids_empty]⟩
  have hclients : Function.update newShop.clients () ((deposit freshId).exec {}) =
      fun _ => (deposit freshId).exec {} := funext fun _ => rfl
  rw [hclients] at hwrite
  have hcollect := World.Step.collect (w := { newShop with clients := fun _ => (deposit freshId).exec {} })
    ⟨(), (deposit freshId).exec {}, id, sampleEnvelope⟩ rfl
  have hpushes : insert (⟨(), (deposit freshId).exec {}, id, sampleEnvelope⟩ : Letter Unit)
      newShop.pushes = {⟨(), (deposit freshId).exec {}, id, sampleEnvelope⟩} := insert_empty_eq _
  refine sync_never_loses newShop _ newShop_start (.tail (.single hwrite) ?_)
  rw [← hpushes]
  exact hcollect

end MyOriShop
