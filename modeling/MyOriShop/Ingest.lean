import MyOriShop.Merge

/-!
# Ingest: the two routes that merge a payload (`app/routes/sync.py`, `app/routes/offline.py`)

* A `Conn` is what a session sees of the database, with the transaction that every statement begins
  where none has begun. `owned` is `with session.begin():`, which raises where one has.
* `mergeRun` is `apply_merge` statement by statement on such a session; what it has inserted when it
  raises is there until somebody rolls back.
* `syncPush` is the route `sync_push`, `offlineUpload` the route `offline_upload`: gate after gate,
  then the merge in the one transaction the route owns.

The rate limiter, the bearer token and the upload token are decided before: a request says how they
were. The database's revision and the digest are the receiver's.

Results:
* `runs_mergeRun`: statement by statement is `applyMerge`.
* `routeEnd`: a route hands the batch it accepts to the merge with nothing written so far.
* `ingest_all_or_nothing`: an ingest commits all of its batch, recomputed, or nothing.
-/

namespace MyOriShop

open Lib.Json (Value valueAt lookup loads)
open Lib.Lines Lib.Fallible Lib.Transaction

/-! ## The session of a route -/

/-- The database as a session sees it, and whether a transaction has begun on it. -/
structure Conn where
  db : Db
  begun : Bool

/-- What a route can raise. -/
inductive Failure where
  /-- `apply_merge` or the commit after it. -/
  | merge (e : Exn)
  /-- `InvalidRequestError`: a transaction is already begun on this session. -/
  | alreadyBegun
  /-- `TypeError`: an unhashable `kind`. -/
  | unhashable
  deriving DecidableEq

/-- A program of a route. -/
abbrev Handler := Tx Conn Failure

/-- A query. It begins a transaction where none has begun. -/
def query : Handler Db := do
  Tx.stage fun c => { c with begun := true }
  let c ← Tx.read
  return c.db

/-- A statement that writes, with the constraints when it has run. -/
def execute (f : Db → Db) : Handler Unit := do
  Tx.stage fun c => ⟨f c.db, true⟩
  Tx.flush (fun c => c.db.check) (.merge .integrity)

/-- What a merge step raises. -/
def lift {α : Type} : Except Exn α → Handler α
  | .ok a => pure a
  | .error e => Tx.raise (.merge e)

/-- The body of a transaction block and the commit at its end. -/
def block {α : Type} (body : Handler α) : Handler α := do
  let a ← body
  Tx.stage fun c => { c with begun := false }
  Tx.commit (fun c => c.db.check) (.merge .integrity)
  return a

/-- `with session.begin():`. -/
def owned {α : Type} (body : Handler α) : Handler α := do
  let c ← Tx.read
  if c.begun then Tx.raise .alreadyBegun
  else Tx.recover (block body) fun e => some do
    Tx.rollback
    Tx.raise e

/-! ## `apply_merge` on a session -/

/-- The server: its columns, its digest, its revision and its clock. -/
structure Receiver where
  driver : Driver
  sha256 : String → String
  /-- `current_schema_version`. -/
  schemaVersion : String
  /-- `utcnow_iso()`. -/
  now : String

variable {rv : Receiver} {records : List ExchangeRecord} {α β : Type}

/-- The bulk insert, where there is something to insert. -/
def insertRun (k : Kind) : List (Row k) → Handler Unit
  | [] => pure ()
  | row :: rows => execute fun d => d.insert k (row :: rows)

/-- `_upsert_reference` and `_insert_new`. -/
def mergeKindRun (rv : Receiver) (records : List ExchangeRecord) (k : Kind) : Handler Tally := do
  let d ← query
  let (rows, conflicts) ← lift (incoming rv.driver rv.now d records k)
  insertRun k rows
  return ⟨k, rows.length, (partitionNew (d.ids k) (bucket records k)).2, conflicts⟩

/-- The kinds one after another. -/
def mergeKindsRun (rv : Receiver) (records : List ExchangeRecord) : List Kind → Handler (List Tally)
  | [] => pure []
  | k :: kinds => do
    let tally ← mergeKindRun rv records k
    let tallies ← mergeKindsRun rv records kinds
    return tally :: tallies

/-- `recompute_derived`: the quantities are written, then checked. -/
def recomputeRun (rv : Receiver) : Handler Unit := do
  Tx.stage fun c => ⟨c.db.recompute rv.now, true⟩
  let d ← query
  match stockMismatch d with
  | some p => Tx.raise (.merge (.stockInvariant p.id))
  | none => pure ()

/-- `apply_merge`. -/
def mergeRun (rv : Receiver) (records : List ExchangeRecord) : Handler MergeReport := do
  let tallies ← mergeKindsRun rv records Kind.all
  recomputeRun rv
  return mergeReport tallies

/-- The merge of a route: whatever the gates have begun is discarded, then the one transaction. -/
def mergeOwned (rv : Receiver) (records : List ExchangeRecord) : Handler MergeReport := do
  Tx.rollback
  owned (mergeRun rv records)

/-! ## The gates -/

/-- `MAX_PUSH_BYTES`, `MAX_OFFLINE_BYTES`. -/
def maxBytes : Nat := 32 * 1024 * 1024

/-- What a route answers without a merge. -/
inductive Refusal where
  /-- 429, `Слишком много запросов. Попробуйте позже.` -/
  | rateLimited
  /-- 413, `Слишком большой объём данных.`; for an upload the page `corrupted`. -/
  | tooLarge
  /-- 400, `Некорректный формат данных.`; for an upload the page `corrupted`. -/
  | malformed
  /-- 409, `Несовместимая версия данных: клиент {client}, сервер {server}. Обновите сервер.` -/
  | schemaAhead (client server : String)
  /-- 401, the page `expired`. -/
  | expired
  /-- 409, the page `incompatible`. -/
  | incompatible (file : Value) (server : String)

/-- What a route answers. -/
inductive Reply where
  | refused (r : Refusal)
  | merged (report : MergeReport)

/-- `push_schema_ok` of two strings. -/
def pushSchemaOk (client server : String) : Bool :=
  client = "" || server = "" || decide (client ≤ server)

/-- `schema_version_ok`. -/
def schemaVersionOk (file : Value) (server : String) : Bool :=
  server = "" || isStr (· = server) file

/-- `_REVISION_ID_RE.fullmatch`. -/
def isRevisionId (s : String) : Bool := s.toList.length = 4 && s.toList.all Char.isDigit

/-- What a payload that does not parse ends a route with. -/
def parseGate (lines : List String) : Except (Failure ⊕ Refusal) ExchangeBatch :=
  match parseExchange lines with
  | .ok batch => .ok batch
  | .error .unhashable => .error (.inl .unhashable)
  | .error _ => .error (.inr .malformed)

/-- A push: whether its device is within the rate, the declared length where it is a number, and
the body. -/
structure PushRequest where
  withinRate : Bool
  contentLength : Option Int
  payload : ByteArray

/-- The gates of `sync_push` up to the parsed batch. -/
def PushRequest.batch (r : PushRequest) : Except (Failure ⊕ Refusal) ExchangeBatch :=
  if !r.withinRate then .error (.inr .rateLimited)
  else if r.contentLength.any fun n => (maxBytes : Int) < n then .error (.inr .tooLarge)
  else if maxBytes < r.payload.size then .error (.inr .tooLarge)
  else match String.fromUTF8? r.payload with
    | none => .error (.inr .malformed)
    | some text => parseGate (splitlines text)

/-- An upload: whether its token is good, and the form field. -/
structure UploadRequest where
  tokenOk : Bool
  payload : String

/-- `header.get("schema_version", "")`. -/
def headerSchema (header : Data) : Value := (lookup "schema_version" header).getD (.str "")

/-- The gates of `offline_upload` up to the header of an untampered bundle. -/
def UploadRequest.header (rv : Receiver) (r : UploadRequest) : Except Refusal Data :=
  if !r.tokenOk then .error .expired
  else if maxBytes < r.payload.utf8ByteSize then .error .tooLarge
  else match splitLf r.payload with
    | [] => .error .malformed
    | first :: recordLines =>
      match loads first with
      | some (.obj header) =>
        if isStr (· = payloadDigest rv.sha256 recordLines) (valueAt "payload_sha256" header) then
          .ok header
        else .error .malformed
      | _ => .error .malformed

/-! ## The routes -/

/-- A gate that ends the route. -/
def stopped : Failure ⊕ Refusal → Handler Reply
  | .inl e => Tx.raise e
  | .inr r => pure (.refused r)

/-- The merge of an accepted batch, and its report. -/
def mergeAnswer (rv : Receiver) (batch : ExchangeBatch) : Handler Reply := do
  let report ← mergeOwned rv batch.records
  return .merged report

/-- `sync_push` from the schema gate on. -/
def mergePushed (rv : Receiver) : Except (Failure ⊕ Refusal) ExchangeBatch → Handler Reply
  | .error stop => stopped stop
  | .ok batch => do
    let _ ← query
    if pushSchemaOk batch.schemaVersion rv.schemaVersion then mergeAnswer rv batch
    else
      let client := if isRevisionId batch.schemaVersion then batch.schemaVersion else "?"
      return .refused (.schemaAhead client rv.schemaVersion)

/-- `sync_push`. -/
def syncPush (rv : Receiver) (r : PushRequest) : Handler Reply := do
  -- the device row is read again for its token prefix
  let _ ← query
  mergePushed rv r.batch

/-- `offline_upload` from the structural validation on. -/
def mergeParsed (rv : Receiver) : Except (Failure ⊕ Refusal) ExchangeBatch → Handler Reply
  | .error stop => stopped stop
  | .ok batch => mergeAnswer rv batch

/-- `offline_upload` from the schema gate on. -/
def mergeUploaded (rv : Receiver) (lines : List String) : Except Refusal Data → Handler Reply
  | .error refusal => pure (.refused refusal)
  | .ok header => do
    let _ ← query
    if schemaVersionOk (headerSchema header) rv.schemaVersion then mergeParsed rv (parseGate lines)
    else return .refused (.incompatible (headerSchema header) rv.schemaVersion)

/-- `offline_upload`. -/
def offlineUpload (rv : Receiver) (r : UploadRequest) : Handler Reply :=
  mergeUploaded rv (splitLf r.payload) (r.header rv)

/-- A request to one of the two. -/
inductive Ingest where
  | push (r : PushRequest)
  | upload (r : UploadRequest)

/-- The route of a request. -/
def Ingest.handler (rv : Receiver) : Ingest → Handler Reply
  | .push r => syncPush rv r
  | .upload r => offlineUpload rv r

/-! ## Statement by statement -/

/-- A program on a session has done what a function does to a database; where the function fails,
the program has raised, with whatever it has staged. -/
inductive Follows (s : Session Conn) :
    Except Exn (Db × α) → Except Failure α × Session Conn → Prop where
  | ok (w : Conn) (a : α) : Follows s (.ok (w.db, a)) (.ok a, { s with working := w })
  | error (w : Conn) (e : Exn) : Follows s (.error e) (.error (.merge e), { s with working := w })

/-- The program does on every session what the function does to its database. -/
def Runs (x : Handler α) (f : Db → Except Exn (Db × α)) : Prop :=
  ∀ s, Follows s (f s.working.db) (x s)

theorem runs_ret (a : α) : Runs (pure a) fun d => .ok (d, a) := fun s => .ok s.working a

theorem runs_bind {x : Handler α} {g : α → Handler β} {f : Db → Except Exn (Db × α)}
    {h : α → Db → Except Exn (Db × β)} (hx : Runs x f) (hg : ∀ a, Runs (g a) (h a)) :
    Runs (x >>= g) fun d => f d >>= fun r => h r.2 r.1 := by
  intro s
  have hfirst := hx s
  show Follows s (f s.working.db >>= fun r => h r.2 r.1) (Tx.andThen x g s)
  unfold Tx.andThen
  generalize x s = out at hfirst ⊢
  generalize f s.working.db = r at hfirst ⊢
  cases hfirst with
  | error w e => exact .error w e
  | ok w a =>
    have hrest := hg a { s with working := w }
    show Follows s (h a w.db) (g a { s with working := w })
    generalize g a { s with working := w } = out at hrest ⊢
    generalize h a w.db = r at hrest ⊢
    cases hrest with
    | ok w' b => exact .ok w' b
    | error w' e => exact .error w' e

theorem runs_query : Runs query fun d => .ok (d, d) :=
  fun s => .ok { s.working with begun := true } s.working.db

theorem runs_lift (r : Except Exn α) : Runs (lift r) fun d => r >>= fun a => .ok (d, a) := by
  intro s
  cases r with
  | ok a => exact .ok s.working a
  | error e => exact .error s.working e

theorem runs_execute (f : Db → Db) :
    Runs (execute f) fun d => if (f d).check then .ok (f d, ()) else .error .integrity := by
  intro s
  show Follows s (if (f s.working.db).check then .ok (f s.working.db, ()) else .error .integrity)
    (if (f s.working.db).check then (.ok (), { s with working := ⟨f s.working.db, true⟩ })
      else (.error (.merge .integrity), { s with working := ⟨f s.working.db, true⟩ }))
  split_ifs
  · exact .ok ⟨f s.working.db, true⟩ ()
  · exact .error ⟨f s.working.db, true⟩ _

theorem runs_congr {x : Handler α} {f g : Db → Except Exn (Db × α)} (h : Runs x f)
    (hfg : ∀ d, f d = g d) : Runs x g :=
  funext hfg ▸ h

theorem runs_insertRun (k : Kind) (rows : List (Row k)) :
    Runs (insertRun k rows) fun d => insertAll d k rows >>= fun d' => .ok (d', ()) := by
  cases rows with
  | nil => exact runs_ret ()
  | cons row rows =>
    refine runs_congr (runs_execute fun d => d.insert k (row :: rows)) fun d => ?_
    have hinsert : insertAll d k (row :: rows) = if (d.insert k (row :: rows)).check then
      .ok (d.insert k (row :: rows)) else .error .integrity := rfl
    rw [hinsert]
    split_ifs <;> rfl

/-- One kind on a session is `mergeKind`. -/
theorem runs_mergeKindRun (k : Kind) :
    Runs (mergeKindRun rv records k) (mergeKind rv.driver rv.now records k) := by
  have hrun := runs_bind runs_query fun d => runs_bind
    (runs_lift (incoming rv.driver rv.now d records k)) fun out =>
      runs_bind (runs_insertRun k out.1) fun _ =>
        runs_ret (⟨k, out.1.length, (partitionNew (d.ids k) (bucket records k)).2, out.2⟩ : Tally)
  refine runs_congr hrun fun d => ?_
  unfold mergeKind
  simp only [ok_bind]
  cases incoming rv.driver rv.now d records k with
  | error e => rfl
  | ok out =>
    obtain ⟨rows, conflicts⟩ := out
    simp only [ok_bind]
    cases insertAll d k rows <;> rfl

theorem runs_mergeKindsRun (kinds : List Kind) :
    Runs (mergeKindsRun rv records kinds) (mergeKinds rv.driver rv.now records kinds) := by
  induction kinds with
  | nil => exact runs_ret []
  | cons k kinds ih =>
    have hkind : Runs (mergeKindRun rv records k) _ := runs_mergeKindRun k
    have hrun := runs_bind hkind fun tally =>
      runs_bind ih fun tallies => runs_ret (tally :: tallies)
    exact runs_congr hrun fun d => rfl

theorem runs_recomputeRun :
    Runs (recomputeRun rv) fun d => recomputeDerived rv.now d >>= fun d' => .ok (d', ()) := by
  have hwrite : Runs (Tx.stage fun c : Conn => ⟨c.db.recompute rv.now, true⟩) fun d =>
      .ok (d.recompute rv.now, ()) := fun s => .ok ⟨s.working.db.recompute rv.now, true⟩ ()
  have hcheck : ∀ d : Db, Runs (match stockMismatch d with
      | some p => Tx.raise (.merge (.stockInvariant p.id))
      | none => pure ()) fun d' => match stockMismatch d with
      | some p => .error (.stockInvariant p.id)
      | none => .ok (d', ()) := by
    intro d s
    cases stockMismatch d with
    | none => exact .ok s.working ()
    | some p => exact .error s.working _
  refine runs_congr (runs_bind hwrite fun _ => runs_bind runs_query hcheck) fun d => ?_
  unfold recomputeDerived
  simp only [ok_bind]
  cases stockMismatch (d.recompute rv.now) <;> rfl

/-- **Statement by statement** is `applyMerge`. -/
theorem runs_mergeRun :
    Runs (mergeRun rv records) fun d => applyMerge rv.driver rv.now d records := by
  have hkinds : Runs (mergeKindsRun rv records Kind.all) _ := runs_mergeKindsRun Kind.all
  have hderived : Runs (recomputeRun rv) _ := runs_recomputeRun
  have hrun := runs_bind hkinds fun tallies =>
    runs_bind hderived fun _ => runs_ret (mergeReport tallies)
  refine runs_congr hrun fun d => ?_
  unfold applyMerge
  cases mergeKinds rv.driver rv.now records Kind.all d with
  | error e => rfl
  | ok out =>
    obtain ⟨d', tallies⟩ := out
    simp only [ok_bind]
    cases recomputeDerived rv.now d' <;> rfl

/-! ## The transaction of a route -/

/-- A session with nothing pending. -/
def idle (d : Db) (reads commits : Nat) : Session Conn := ⟨⟨d, false⟩, ⟨d, false⟩, reads, commits⟩

variable {d d' : Db} {report : MergeReport}

theorem owned_idle (body : Handler α) (d : Db) (reads commits : Nat) :
    owned body (idle d reads commits) = Tx.recover (block body)
      (fun e => some (Tx.rollback >>= fun _ => Tx.raise e)) (idle d reads commits) := rfl

/-- What a transaction block does with a body that succeeds: one commit. -/
theorem owned_ok {body : Handler α} {f : Db → Except Exn (Db × α)} (hbody : Runs body f) {a : α}
    (hf : f d = .ok (d', a)) (hok : d'.Ok) (reads commits : Nat) :
    owned body (idle d reads commits) = (.ok a, idle d' reads (commits + 1)) := by
  have hrun : Follows _ (f d) _ := hbody (idle d reads commits)
  rw [hf] at hrun
  generalize hout : body (idle d reads commits) = out at hrun
  cases hrun with
  | ok w a =>
    have hclosed : (Tx.stage fun c : Conn => { c with begun := false } : Handler Unit)
        { idle d reads commits with working := w } =
        (.ok (), ⟨⟨d, false⟩, ⟨w.db, false⟩, reads, commits⟩) := rfl
    rw [owned_idle]
    refine recover_run_ok ?_
    rw [block, bind_run_ok hout, bind_run_ok hclosed]
    exact bind_run_ok (commit_run ((Db.check_iff _).mpr hok))

/-- What it does with a body that fails: everything is rolled back. -/
theorem owned_error {body : Handler α} {f : Db → Except Exn (Db × α)} (hbody : Runs body f)
    {e : Exn} (hf : f d = .error e) (reads commits : Nat) :
    owned body (idle d reads commits) = (.error (.merge e), idle d reads commits) := by
  have hrun : Follows _ (f d) _ := hbody (idle d reads commits)
  rw [hf] at hrun
  generalize hout : body (idle d reads commits) = out at hrun
  cases hrun with
  | error w e =>
    have hblock : block body (idle d reads commits) =
        (.error (.merge e), { idle d reads commits with working := w }) := bind_run_error hout
    refine (owned_idle body d reads commits).trans ?_
    exact recover_run_error (g := fun e => some (Tx.rollback >>= fun _ => Tx.raise e))
      (y := Tx.rollback >>= fun _ => Tx.raise (.merge e)) hblock rfl

/-- A merge in the route's own transaction, whatever the gates have begun: it succeeds. -/
theorem mergeOwned_ok (hd : d.Ok)
    (h : applyMerge rv.driver rv.now d records = .ok (d', report)) (w : Conn) (reads commits : Nat) :
    mergeOwned rv records ⟨⟨d, false⟩, w, reads, commits⟩ =
      (.ok report, idle d' reads (commits + 1)) :=
  owned_ok runs_mergeRun h (applyMerge_ok hd h) reads commits

/-- It fails. -/
theorem mergeOwned_error {e : Exn} (h : applyMerge rv.driver rv.now d records = .error e) (w : Conn)
    (reads commits : Nat) : mergeOwned rv records ⟨⟨d, false⟩, w, reads, commits⟩ =
      (.error (.merge e), idle d reads commits) :=
  owned_error runs_mergeRun h reads commits

/-! ## The routes -/

/-- The batch that passes the gates of `sync_push`. -/
def acceptedPush (rv : Receiver) :
    Except (Failure ⊕ Refusal) ExchangeBatch → Option ExchangeBatch
  | .error _ => none
  | .ok batch => if pushSchemaOk batch.schemaVersion rv.schemaVersion then some batch else none

/-- The batch that passes the gates of `offline_upload`. -/
def acceptedUpload (rv : Receiver) (lines : List String) :
    Except Refusal Data → Option ExchangeBatch
  | .error _ => none
  | .ok header =>
    if schemaVersionOk (headerSchema header) rv.schemaVersion then (parseExchange lines).toOption
    else none

/-- The batch that passes every gate of its route. -/
def Ingest.accepted (rv : Receiver) : Ingest → Option ExchangeBatch
  | .push r => acceptedPush rv r.batch
  | .upload r => acceptedUpload rv (splitLf r.payload) (r.header rv)

theorem parseGate_toOption (lines : List String) :
    (parseGate lines).toOption = (parseExchange lines).toOption := by
  unfold parseGate
  cases parseExchange lines with
  | ok batch => rfl
  | error e => cases e <;> rfl

/-- How a route has ended that found nothing pending: it merged the batch it accepted, or it wrote
nothing. -/
inductive RouteEnd (rv : Receiver) (d : Db) (reads commits : Nat) :
    Option ExchangeBatch → Except Failure Reply × Session Conn → Prop where
  | merge (batch : ExchangeBatch) (w : Conn) : RouteEnd rv d reads commits (some batch)
      (mergeAnswer rv batch ⟨⟨d, false⟩, w, reads, commits⟩)
  | stop (answer : Except Failure Reply) (w : Conn) (h : ∀ report, answer ≠ .ok (.merged report)) :
      RouteEnd rv d reads commits none (answer, ⟨⟨d, false⟩, w, reads, commits⟩)

variable {reads commits : Nat}

theorem routeEnd_refused (refusal : Refusal) (w : Conn) : RouteEnd rv d reads commits none
    (.ok (.refused refusal), ⟨⟨d, false⟩, w, reads, commits⟩) := by
  refine .stop _ w fun report h => ?_
  cases h

theorem routeEnd_stopped (stop : Failure ⊕ Refusal) (w : Conn) :
    RouteEnd rv d reads commits none (stopped stop ⟨⟨d, false⟩, w, reads, commits⟩) := by
  cases stop with
  | inl e =>
    refine .stop (.error e) w fun report h => ?_
    cases h
  | inr refusal => exact routeEnd_refused refusal w

theorem routeEnd_pushed (gate : Except (Failure ⊕ Refusal) ExchangeBatch) (w : Conn) :
    RouteEnd rv d reads commits (acceptedPush rv gate)
      (mergePushed rv gate ⟨⟨d, false⟩, w, reads, commits⟩) := by
  cases gate with
  | error stop => exact routeEnd_stopped stop w
  | ok batch =>
    unfold acceptedPush mergePushed
    dsimp only
    by_cases hschema : pushSchemaOk batch.schemaVersion rv.schemaVersion = true
    · simp only [hschema, if_true]
      exact .merge batch { w with begun := true }
    · simp only [hschema]
      exact routeEnd_refused _ { w with begun := true }

theorem routeEnd_uploaded (lines : List String) (gate : Except Refusal Data) (w : Conn) :
    RouteEnd rv d reads commits (acceptedUpload rv lines gate)
      (mergeUploaded rv lines gate ⟨⟨d, false⟩, w, reads, commits⟩) := by
  cases gate with
  | error refusal => exact routeEnd_refused refusal w
  | ok header =>
    unfold acceptedUpload mergeUploaded
    dsimp only
    by_cases hschema : schemaVersionOk (headerSchema header) rv.schemaVersion = true
    · simp only [hschema, if_true, ← parseGate_toOption]
      cases parseGate lines with
      | error stop => exact routeEnd_stopped stop { w with begun := true }
      | ok batch => exact .merge batch { w with begun := true }
    · simp only [hschema]
      exact routeEnd_refused _ { w with begun := true }

/-- **A route** hands the batch it accepts to the merge, with nothing written so far. -/
theorem routeEnd (rv : Receiver) (request : Ingest) (d : Db) (reads commits : Nat) :
    RouteEnd rv d reads commits (request.accepted rv)
      (request.handler rv (idle d reads commits)) := by
  cases request with
  | push r => exact routeEnd_pushed r.batch ⟨d, true⟩
  | upload r => exact routeEnd_uploaded (splitLf r.payload) (r.header rv) ⟨d, false⟩

/-- What a route does with the batch it accepts. -/
theorem handler_of_accepted {request : Ingest} {batch : ExchangeBatch}
    (h : request.accepted rv = some batch) : request.handler rv (idle d reads commits) =
      mergeAnswer rv batch (idle d reads commits) := by
  have hend := routeEnd rv request d reads commits
  rw [h] at hend
  generalize request.handler rv (idle d reads commits) = out at hend ⊢
  cases hend with
  | merge _ w => rfl

theorem parseGate_ok {lines : List String} {batch : ExchangeBatch}
    (h : parseGate lines = .ok batch) : parseExchange lines = .ok batch := by
  have hparsed := parseGate_toOption lines
  rw [h] at hparsed
  cases hlines : parseExchange lines with
  | error e =>
    rw [hlines] at hparsed
    cases hparsed
  | ok batch' =>
    rw [hlines] at hparsed
    cases hparsed
    rfl

/-- What a route accepts has parsed. -/
theorem accepted_parsed {request : Ingest} {batch : ExchangeBatch}
    (h : request.accepted rv = some batch) : ∃ lines, parseExchange lines = .ok batch := by
  cases request with
  | push r =>
    change acceptedPush rv r.batch = some batch at h
    cases hbatch : r.batch with
    | error stop =>
      rw [hbatch] at h
      cases h
    | ok batch' =>
      rw [hbatch, acceptedPush, Option.ite_none_right_eq_some] at h
      obtain ⟨-, rfl⟩ : _ ∧ batch' = batch := ⟨h.1, Option.some.inj h.2⟩
      unfold PushRequest.batch at hbatch
      split_ifs at hbatch
      split at hbatch
      · cases hbatch
      · exact ⟨_, parseGate_ok hbatch⟩
  | upload r =>
    change acceptedUpload rv (splitLf r.payload) (r.header rv) = some batch at h
    cases hheader : r.header rv with
    | error refusal =>
      rw [hheader] at h
      cases h
    | ok header =>
      rw [hheader, acceptedUpload, Option.ite_none_right_eq_some] at h
      refine ⟨splitLf r.payload, ?_⟩
      cases hlines : parseExchange (splitLf r.payload) with
      | error e =>
        rw [hlines] at h
        cases h.2
      | ok batch' =>
        rw [hlines] at h
        cases h.2
        rfl

/-! ## All or nothing -/

/-- All of a batch is in `d'`: the new rows of every kind, in a database that satisfies its
constraints, with every quantity recomputed and checked. -/
structure Stored (rv : Receiver) (d : Db) (records : List ExchangeRecord) (rows : Incoming)
    (d' : Db) (report : MergeReport) : Prop where
  incoming : ∀ k, incoming rv.driver rv.now d records k = .ok (rows k)
  ok : (d.receive rows).Ok
  derived : d' = (d.receive rows).recompute rv.now
  balanced : StockBalanced d'
  report : report = mergeReport (Kind.all.map (kindTally d records rows))

theorem applyMerge_iff_stored (hd : d.Ok) : applyMerge rv.driver rv.now d records = .ok (d', report) ↔
    ∃ rows, Stored rv d records rows d' report := by
  rw [applyMerge_ok_iff hd]
  simp only [recomputeDerived_ok_iff]
  constructor
  · rintro ⟨rows, hrows, hok, ⟨hbalanced, rfl⟩, hreport⟩
    exact ⟨rows, hrows, hok, rfl, hbalanced, hreport⟩
  · rintro ⟨rows, h⟩
    obtain rfl := h.derived
    exact ⟨rows, h.incoming, h.ok, ⟨h.balanced, rfl⟩, h.report⟩

/-- **All or nothing**: a push or an upload commits every new record of the batch it accepted with
every quantity recomputed, in one commit, or it commits nothing; and the latter only where the batch
cannot be stored as a whole. -/
theorem ingest_all_or_nothing (rv : Receiver) (request : Ingest) (db : Database)
    (reads commits : Nat) :
    (∃ batch rows d' report, request.accepted rv = some batch ∧
        Stored rv db.db batch.records rows d' report ∧
        (∀ r ∈ batch.records, dataId r.data ∈ d'.ids r.kind) ∧ Settled d' ∧
        request.handler rv (idle db.db reads commits) =
          (.ok (.merged report), idle d' reads (commits + 1))) ∨
      (∃ answer w, (∀ report, answer ≠ .ok (.merged report)) ∧
        request.handler rv (idle db.db reads commits) =
          (answer, ⟨⟨db.db, false⟩, w, reads, commits⟩) ∧
        ∀ batch, request.accepted rv = some batch →
          ∀ rows d' report, ¬Stored rv db.db batch.records rows d' report) := by
  have hend := routeEnd rv request db.db reads commits
  have hparsed : ∀ batch, request.accepted rv = some batch → _ := fun batch => accepted_parsed
  generalize request.handler rv (idle db.db reads commits) = out at hend ⊢
  generalize request.accepted rv = accepted at hend hparsed ⊢
  cases hend with
  | stop answer w h => exact .inr ⟨answer, w, h, rfl, fun batch hbatch => nomatch hbatch⟩
  | merge batch w =>
    obtain ⟨lines, hlines⟩ := hparsed batch rfl
    cases hmerge : applyMerge rv.driver rv.now db.db batch.records with
    | ok result =>
      obtain ⟨d', report⟩ := result
      obtain ⟨rows, hstored⟩ := (applyMerge_iff_stored db.ok).mp hmerge
      refine .inl ⟨batch, rows, d', report, rfl, hstored, fun r hr => ?_,
        applyMerge_settled db.ok hmerge, ?_⟩
      · refine (mem_ids_applyMerge db.ok (parseExchange_accepted hlines) hmerge r.kind _).mpr (.inr ?_)
        exact List.mem_map_of_mem (mem_bucket.mpr hr)
      · exact bind_run_ok (mergeOwned_ok db.ok hmerge w reads commits)
    | error e =>
      refine .inr ⟨.error (.merge e), ⟨db.db, false⟩, fun report h => ?_,
        bind_run_error (mergeOwned_error hmerge w reads commits), ?_⟩
      · cases h
      rintro _ ⟨⟩ rows d' report hstored
      rw [(applyMerge_iff_stored db.ok).mpr ⟨rows, hstored⟩] at hmerge
      cases hmerge

end MyOriShop
