import MyOriShop.Effects
import MyOriShop.PushClosure
import MyOriShop.Triggers

/-!
# Restores: ledger numbers and the rollback (`app/services/ledger.py`, `launcher/adapters.py`)

`next_seq` is one more than the highest number the device has in its own table. `backup_restore`
puts an earlier file in the place of the database; what was sent since stays on the server, under
numbers the restored table gives out again.

* `Entry` is what identifies a ledger row: its id and its number, `(device_id, seq)`.
* `Site` is a client with its backups, and the server.
* `Site.Step` is one move: a local request, a push with or without its response, a backup, a restore.
* `Careful` is the condition under which a move leaves the numbers usable.

Results:
* `exec_grown`: a request appends rows under the device's next numbers.
* `ledger_merged`: a merged push appends the unsynced rows whose ids are new.
* `Site.Step.sound`: what holds of every run, restores or not.
* `usable_after_restores`: careful moves, and no others, keep every number with one row; where one
  has two, the push is refused until another backup is restored.
-/

namespace MyOriShop

open Relation (ReflTransGen)

variable {env : Env} {d d' : Db} {t : LedgerTable} {device : String}

/-! ## Entries -/

/-- A ledger row's id, and its number under the unique index. -/
structure Entry where
  id : String
  deviceId : String
  seq : Int
  deriving DecidableEq

/-- `(device_id, seq)`. -/
def Entry.number (e : Entry) : String × Int := (e.deviceId, e.seq)

def Operation.entry (o : Operation) : Entry := ⟨o.id, o.deviceId, o.seq⟩

def CashMovement.entry (m : CashMovement) : Entry := ⟨m.id, m.deviceId, m.seq⟩

/-- The entries of a ledger table. -/
def ledger : LedgerTable → Db → List Entry
  | .operations, d => d.operations.map Operation.entry
  | .cashMovements, d => d.cashMovements.map CashMovement.entry

/-- The entries with no `synced_at`. -/
def unsynced : LedgerTable → Db → List Entry
  | .operations, d => (unsyncedOps d).map Operation.entry
  | .cashMovements, d => (unsyncedCash d).map CashMovement.entry

/-- The number the device's next row takes. -/
def next (t : LedgerTable) (d : Db) (device : String) : Int :=
  nextSeq ((ledger t d).map Entry.number) device

theorem ledger_ids (t : LedgerTable) (d : Db) : (ledger t d).map Entry.id = d.ids t.kind := by
  cases t <;> exact List.map_map

theorem unsynced_sublist (t : LedgerTable) (d : Db) : (unsynced t d).Sublist (ledger t d) := by
  cases t <;> exact List.filter_sublist.map _

theorem ledger_congr (h : d'.get t.kind = d.get t.kind) :
    ledger t d' = ledger t d ∧ unsynced t d' = unsynced t d := by
  cases t with
  | operations =>
    have h : d'.operations = d.operations := h
    simp only [ledger, unsynced, unsyncedOps, h, and_self]
  | cashMovements =>
    have h : d'.cashMovements = d.cashMovements := h
    simp only [ledger, unsynced, unsyncedCash, h, and_self]

/-! ## A request appends -/

/-- `n` numbers of a device, from a first one on. -/
def numbersFrom (device : String) (first : Int) (n : Nat) : List (String × Int) :=
  (List.range n).map fun (i : Nat) => (device, first + i)

theorem mem_numbersFrom {first seq : Int} {n : Nat} {deviceId : String} :
    (deviceId, seq) ∈ numbersFrom device first n ↔
      deviceId = device ∧ first ≤ seq ∧ seq < first + n := by
  simp only [numbersFrom, List.mem_map, List.mem_range, Prod.mk.injEq]
  constructor
  · rintro ⟨i, hi, rfl, rfl⟩
    exact ⟨rfl, by omega, by omega⟩
  · rintro ⟨rfl, hle, hlt⟩
    exact ⟨(seq - first).toNat, by omega, rfl, by omega⟩

theorem nodup_numbersFrom (device : String) (first : Int) (n : Nat) :
    (numbersFrom device first n).Nodup := by
  refine List.Nodup.map (fun i j h => ?_) List.nodup_range
  have h := congrArg Prod.snd h
  dsimp only at h
  omega

/-- A ledger table with new rows: unsynced, and numbered on from the device's last one. -/
structure Grown (device : String) (t : LedgerTable) (d d' : Db) (new : List Entry) : Prop where
  rows : ledger t d' = ledger t d ++ new
  unstamped : unsynced t d' = unsynced t d ++ new
  numbers : new.map Entry.number = numbersFrom device (next t d device) new.length
  following : next t d' device = next t d device + new.length

theorem Grown.of_get (h : d'.get t.kind = d.get t.kind) : Grown device t d d' [] where
  rows := by rw [(ledger_congr h).1, List.append_nil]
  unstamped := by rw [(ledger_congr h).2, List.append_nil]
  numbers := rfl
  following := by simp [next, (ledger_congr h).1]

/-- A table with one more row, under the next number. -/
theorem Grown.one {e : Entry} (hledger : ledger t d' = ledger t d ++ [e])
    (hunsynced : unsynced t d' = unsynced t d ++ [e])
    (hnumber : e.number = (device, next t d device)) : Grown device t d d' [e] where
  rows := hledger
  unstamped := hunsynced
  numbers := by simp [hnumber, numbersFrom]
  following := by
    rw [next, hledger, List.map_append, List.map_singleton, hnumber]
    exact nextSeq_append ..

theorem Grown.trans {d'' : Db} {new new' : List Entry} (h : Grown device t d d' new)
    (h' : Grown device t d' d'' new') : Grown device t d d'' (new ++ new') where
  rows := by rw [h'.rows, h.rows, List.append_assoc]
  unstamped := by rw [h'.unstamped, h.unstamped, List.append_assoc]
  numbers := by
    rw [List.map_append, h.numbers, h'.numbers, h.following, List.length_append]
    simp only [numbersFrom, List.range_add, List.map_append, List.map_map]
    refine congrArg _ (List.map_congr_left fun i _ => ?_)
    simp [Int.add_assoc]
  following := by
    rw [h'.following, h.following, List.length_append]
    omega

/-- One write of a request appends one row to a ledger table, or none. -/
theorem Scoped.grown {sc : Scope} (h : Scoped sc env d d') (t : LedgerTable) :
    ∃ new, Grown env.deviceId t d d' new := by
  cases h with
  | born k row fresh hborn =>
    have hk : t.kind ≠ k := by
      rintro rfl
      cases t <;> exact hborn
    exact ⟨[], .of_get (Db.get_insert_ne d hk _)⟩
  | edited k id f hedit =>
    refine ⟨[], .of_get (get_edit_of_eq fun heq r hr => ?_)⟩
    subst heq
    cases t <;> exact hedit r hr
  | operation op stamp fresh hborn hplain hby =>
    have hops := (applyOperation_get d op stamp).1
    cases t with
    | operations =>
      refine ⟨[op.entry], .one ?_ ?_ ?_⟩
      · simp only [ledger, hops, List.map_append, List.map_singleton]
      · simp [unsynced, unsyncedOps, hops, hborn.unsynced]
      · rw [Entry.number, Operation.entry, hby.device, hby.seq, next, ledger, List.map_map]
        rfl
    | cashMovements =>
      exact ⟨[], .of_get (applyOperation_get_ne d op stamp (by decide) (by decide) (by decide))⟩
  | cash m fresh hborn hplain hby =>
    cases t with
    | operations => exact ⟨[], .of_get rfl⟩
    | cashMovements =>
      refine ⟨[m.entry], .one ?_ ?_ ?_⟩
      · simp only [ledger, Db.insert, Db.set, Db.get, List.map_append, List.map_singleton]
      · simp [unsynced, unsyncedCash, Db.insert, Db.set, Db.get, hborn.unsynced]
      · rw [Entry.number, CashMovement.entry, hby.device, hby.seq, next, ledger, List.map_map]
        rfl

/-- **A request** appends rows under the device's next numbers. -/
theorem reaches_grown {sc : Scope} (h : ReflTransGen (Scoped sc env) d d') (t : LedgerTable) :
    ∃ new, Grown env.deviceId t d d' new := by
  induction h with
  | refl => exact ⟨[], .of_get rfl⟩
  | tail _ hstep ih =>
    obtain ⟨new, hnew⟩ := ih
    obtain ⟨new', hnew'⟩ := hstep.grown t
    exact ⟨new ++ new', hnew.trans hnew'⟩

theorem exec_grown (r : Request) (d : Db) (t : LedgerTable) :
    ∃ new, Grown r.env.deviceId t d (r.exec d) new :=
  reaches_grown (Call.reaches r.env d r.call fun _ _ => .inr trivial) t

/-! ## A push -/

variable {driver : Driver} {now stamp : String} {client server server' : Db}

/-- **A merged push** appends the unsynced rows whose ids are new to the server. -/
theorem ledger_merged {report : MergeReport} (hserver : server.Ok)
    (h : applyMerge driver now server (collectPushRecords client).1 = .ok (server', report))
    (t : LedgerTable) : ledger t server' = ledger t server ++
      (unsynced t client).filter fun e => e.id ∉ server.ids t.kind := by
  obtain ⟨rows, hrows, -, hderived, -⟩ := (applyMerge_ok_iff hserver).mp h
  obtain ⟨-, rfl⟩ := recomputeDerived_ok_iff.mp hderived
  have hincoming : ∀ k, rows k = resolveKind server k (arriving client server k) := fun k =>
    Except.ok.inj ((hrows k).symm.trans (incoming_push client server k))
  cases t with
  | operations =>
    have hnew : (rows .operation).1 = arriving client server .operation := by rw [hincoming]; rfl
    have hpushed : pushedRows client .operation = unsyncedOps client := pushed_eq client .operation
    have hget : ((server.receive rows).recompute now).operations =
        server.operations ++ (rows .operation).1 :=
      (operations_recompute now _).trans (Db.get_receive server rows .operation)
    rw [ledger, hget, List.map_append, hnew, arriving, hpushed, newRows, unsynced, List.filter_map,
      List.map_map]
    rfl
  | cashMovements =>
    have hnew : (rows .cashMovement).1 = arriving client server .cashMovement := by
      rw [hincoming]
      rfl
    have hpushed : pushedRows client .cashMovement = unsyncedCash client :=
      pushed_eq client .cashMovement
    have hget : ((server.receive rows).recompute now).cashMovements =
        server.cashMovements ++ (rows .cashMovement).1 :=
      Db.get_receive server rows .cashMovement
    rw [ledger, hget, List.map_append, hnew, arriving, hpushed, newRows, unsynced, List.filter_map,
      List.map_map]
    rfl

/-- The stamp changes no entry. -/
theorem ledger_stamped (stamp : String) (ids : PushIds) (t : LedgerTable) (d : Db) :
    ledger t (stampSynced stamp ids d) = ledger t d := by
  cases t with
  | operations =>
    rw [ledger, ledger, stampSynced, List.map_map]
    refine List.map_congr_left fun o _ => ?_
    rw [Function.comp_apply]
    split_ifs <;> rfl
  | cashMovements =>
    rw [ledger, ledger, stampSynced, List.map_map]
    refine List.map_congr_left fun m _ => ?_
    rw [Function.comp_apply]
    split_ifs <;> rfl

/-! ## Moves -/

/-- A client with the backups of its database, and the server. -/
structure Site where
  client : Db
  server : Db
  backups : List Db

/-- The client's database and its backups. -/
def Site.copies (s : Site) : List Db := s.client :: s.backups

/-- Every database of the site. -/
def Site.dbs (s : Site) : List Db := s.server :: s.copies

/-- What can happen next. -/
inductive Move where
  | write (r : Request)
  | push (driver : Driver) (now stamp : String)
  /-- A push that is merged, its response lost. -/
  | lost (driver : Driver) (now : String)
  | backup
  /-- `backup_restore`. -/
  | restore (copy : Db)

/-- One move. A push that is refused leaves both sides as they are, and is none. -/
inductive Site.Step (device : String) (s : Site) : Move → Site → Prop where
  | write (r : Request) (hdevice : r.env.deviceId = device)
      -- `new_id` makes no id that is anywhere yet
      (fresh : ∀ t : LedgerTable, ∀ i ∈ (r.exec s.client).ids t.kind, i ∉ s.client.ids t.kind →
        ∀ d ∈ s.dbs, i ∉ d.ids t.kind) :
      Step device s (.write r) { s with client := r.exec s.client }
  | push {driver : Driver} {now stamp : String} {server : Db} {report : MergeReport}
      (h : applyMerge driver now s.server (collectPushRecords s.client).1 = .ok (server, report)) :
      Step device s (.push driver now stamp)
        { s with
          server := server
          client := stampSynced stamp (collectPushRecords s.client).2 s.client }
  | lost {driver : Driver} {now : String} {server : Db} {report : MergeReport}
      (h : applyMerge driver now s.server (collectPushRecords s.client).1 = .ok (server, report)) :
      Step device s (.lost driver now) { s with server := server }
  | backup : Step device s .backup { s with backups := s.client :: s.backups }
  | restore {copy : Db} (h : copy ∈ s.backups) :
      Step device s (.restore copy) { s with client := copy }

/-- The device's numbers in a ledger start at 1 and have no gap. -/
def Gapless (device : String) (entries : List Entry) : Prop :=
  ∀ e ∈ entries, e.deviceId = device →
    1 ≤ e.seq ∧ ∀ n, 1 ≤ n → n ≤ e.seq → (device, n) ∈ entries.map Entry.number

/-- A device that has not written yet. -/
structure Site.Start (device : String) (s : Site) : Prop where
  server : s.server.Ok
  gapless : ∀ t, Gapless device (ledger t s.server)
  client : ∀ t, ledger t s.client = []
  backups : s.backups = []

/-- No number of the client is another row's on the server. -/
def Site.Usable (s : Site) : Prop :=
  ∀ t, ∀ e ∈ ledger t s.client, ∀ e' ∈ ledger t s.server, e'.number = e.number → e'.id = e.id

/-- The condition on a move: rows are appended only when the server has no row of the device that is
numbered as the client's next one or higher; and a copy is restored only when no number of its
unsynced rows is another row's on the server. -/
def Careful (s : Site) : Move → Prop
  | .write r => ∀ t, ledger t (r.exec s.client) ≠ ledger t s.client →
      ∀ e ∈ ledger t s.server, e.deviceId = r.env.deviceId →
        e.seq < next t s.client r.env.deviceId
  | .restore copy => ∀ t, ∀ e ∈ unsynced t copy, ∀ e' ∈ ledger t s.server,
      e'.number = e.number → e'.id = e.id
  | .push .. | .lost .. | .backup => True

/-! ## Numbers without gaps -/

theorem one_le_next (h : Gapless device (ledger t d)) : 1 ≤ next t d device := by
  rcases nextSeq_eq_iff.mp rfl with ⟨hone, -⟩ | ⟨hlast, -⟩
  · exact hone.ge
  · obtain ⟨e, he, hnumber⟩ := List.mem_map.mp hlast
    have hseq : e.seq = next t d device - 1 := congrArg Prod.snd hnumber
    have hpos := (h e he (congrArg Prod.fst hnumber)).1
    omega

/-- Every number below the next one is taken. -/
theorem number_taken (h : Gapless device (ledger t d)) {n : Int} (hpos : 1 ≤ n)
    (hlt : n < next t d device) : (device, n) ∈ (ledger t d).map Entry.number := by
  rcases nextSeq_eq_iff.mp rfl with ⟨hone, -⟩ | ⟨hlast, -⟩
  · have hone : next t d device = 1 := hone
    omega
  · obtain ⟨e, he, hnumber⟩ := List.mem_map.mp hlast
    have hseq : e.seq = next t d device - 1 := congrArg Prod.snd hnumber
    exact (h e he (congrArg Prod.fst hnumber)).2 n hpos (by omega)

theorem Gapless.nil (device : String) : Gapless device [] := fun _ h => absurd h List.not_mem_nil

/-- Rows that bring all the numbers below their own. -/
theorem Gapless.append {entries new : List Entry} (h : Gapless device entries)
    (hnew : ∀ e ∈ new, e.deviceId = device → 1 ≤ e.seq ∧
      ∀ n, 1 ≤ n → n ≤ e.seq → (device, n) ∈ (entries ++ new).map Entry.number) :
    Gapless device (entries ++ new) := by
  intro e he hdevice
  rcases List.mem_append.mp he with he | he
  · refine ⟨(h e he hdevice).1, fun n hpos hle => ?_⟩
    rw [List.map_append]
    exact List.mem_append_left _ ((h e he hdevice).2 n hpos hle)
  · exact hnew e he hdevice

section Grown

variable {new : List Entry}

theorem Grown.mem_number (h : Grown device t d d' new) {deviceId : String} {n : Int} :
    (deviceId, n) ∈ new.map Entry.number ↔
      deviceId = device ∧ next t d device ≤ n ∧ n < next t d device + new.length := by
  rw [h.numbers, mem_numbersFrom]

theorem Grown.number_of_mem (h : Grown device t d d' new) {e : Entry} (he : e ∈ new) :
    e.deviceId = device ∧ next t d device ≤ e.seq := by
  obtain ⟨hdevice, hle, -⟩ := h.mem_number.mp (List.mem_map_of_mem (f := Entry.number) he)
  exact ⟨hdevice, hle⟩

theorem Grown.gapless (h : Grown device t d d' new) (hd : Gapless device (ledger t d)) :
    Gapless device (ledger t d') := by
  rw [h.rows]
  refine hd.append fun e he hdevice => ?_
  obtain ⟨-, hle, hlt⟩ := h.mem_number.mp (List.mem_map_of_mem (f := Entry.number) he)
  have hone := one_le_next hd
  refine ⟨by omega, fun n hpos hn => ?_⟩
  rw [List.map_append, List.mem_append]
  by_cases hlow : n < next t d device
  · exact .inl (number_taken hd hpos hlow)
  · exact .inr (h.mem_number.mpr ⟨rfl, by omega, by omega⟩)

theorem Grown.nodup (h : Grown device t d d' new) (hd : ((ledger t d).map Entry.number).Nodup) :
    ((ledger t d').map Entry.number).Nodup := by
  rw [h.rows, List.map_append]
  refine List.nodup_append'.mpr ⟨hd, h.numbers ▸ nodup_numbersFrom .., fun number hold hnew => ?_⟩
  obtain ⟨deviceId, n⟩ := number
  obtain ⟨rfl, hle, -⟩ := h.mem_number.mp hnew
  exact absurd (lt_nextSeq hold) (Int.not_lt.mpr hle)

end Grown

/-! ## Whatever is restored -/

/-- The entries of a table, anywhere on the site. -/
def Site.entries (s : Site) (t : LedgerTable) : List Entry := s.dbs.flatMap (ledger t)

theorem mem_entries {s : Site} {e : Entry} : e ∈ s.entries t ↔
    e ∈ ledger t s.server ∨ e ∈ ledger t s.client ∨ ∃ d ∈ s.backups, e ∈ ledger t d := by
  simp only [Site.entries, Site.dbs, Site.copies, List.flatMap_cons, List.mem_append,
    List.mem_flatMap]

/-- What holds of the client and of every backup: what is stamped has been merged. -/
structure SoundCopy (device : String) (server d : Db) : Prop where
  ids : ∀ t : LedgerTable, (d.ids t.kind).Nodup
  numbers : ∀ t, ((ledger t d).map Entry.number).Nodup
  delivered : ∀ t, ∀ e ∈ ledger t d, e ∈ unsynced t d ∨ e ∈ ledger t server
  gapless : ∀ t, Gapless device (ledger t d)

/-- What holds in every run: above all, one id is one row wherever it is. -/
structure Site.Sound (device : String) (s : Site) : Prop where
  server : s.server.Ok
  gapless : ∀ t, Gapless device (ledger t s.server)
  copies : ∀ d ∈ s.copies, SoundCopy device s.server d
  identified : ∀ t, ∀ e ∈ s.entries t, ∀ e' ∈ s.entries t, e.id = e'.id → e = e'

variable {s s' : Site} {m : Move}

theorem Site.Start.sound (h : s.Start device) : s.Sound device := by
  have hids : ∀ t : LedgerTable, (s.client.ids t.kind) = [] := fun t => by
    rw [← ledger_ids, h.client t, List.map_nil]
  have hcopies : s.copies = [s.client] := by rw [Site.copies, h.backups]
  refine ⟨h.server, h.gapless, fun d hd => ?_, fun t e he e' he' hid => ?_⟩
  · cases List.mem_singleton.mp (hcopies ▸ hd)
    refine ⟨fun t => ?_, fun t => ?_, fun t e he => ?_, fun t => ?_⟩
    · rw [hids]
      exact List.nodup_nil
    · rw [h.client t]
      exact List.nodup_nil
    · rw [h.client t] at he
      exact absurd he List.not_mem_nil
    · rw [h.client t]
      exact .nil device
  · have hserver : ∀ e ∈ s.entries t, e ∈ ledger t s.server := by
      intro e he
      simpa [Site.entries, Site.dbs, hcopies, h.client t] using he
    have hnodup : ((ledger t s.server).map Entry.id).Nodup := by
      rw [ledger_ids]
      exact h.server.nodup _
    exact List.inj_on_of_nodup_map hnodup (hserver e he) (hserver e' he') hid

theorem ledger_numbers (h : server.Ok) (t : LedgerTable) :
    ((ledger t server).map Entry.number).Nodup := by
  cases t with
  | operations =>
    rw [ledger, List.map_map]
    exact h.operationSeq
  | cashMovements =>
    rw [ledger, List.map_map]
    exact h.cashSeq

/-- A row of the client with a number of a row of the server that is not this row: it is unsynced. -/
theorem Site.Sound.eq_of_number (h : s.Sound device) (hd : d ∈ s.copies) {e e' : Entry}
    (he : e ∈ ledger t d) (he' : e' ∈ ledger t s.server) (hnumber : e'.number = e.number)
    (hsynced : e ∉ unsynced t d) : e' = e := by
  have hthere := ((h.copies d hd).delivered t e he).resolve_left hsynced
  exact List.inj_on_of_nodup_map (ledger_numbers h.server t) he' hthere hnumber

theorem SoundCopy.write (h : SoundCopy device server d) {r : Request}
    (hdevice : r.env.deviceId = device) : SoundCopy device server (r.exec d) := by
  subst hdevice
  refine ⟨fun t => writes_nodup (exec_writes r d) (h.ids t), fun t => ?_, fun t e he => ?_,
    fun t => ?_⟩ <;> obtain ⟨new, hgrown⟩ := exec_grown r d t
  · exact hgrown.nodup (h.numbers t)
  · rw [hgrown.rows] at he
    rw [hgrown.unstamped, List.mem_append]
    rcases List.mem_append.mp he with he | he
    · exact (h.delivered t e he).imp_left .inl
    · exact .inl (.inr he)
  · exact hgrown.gapless (h.gapless t)

/-- **What a merged push leaves**: every row of the client is on the server, and what is new there
is the client's. -/
theorem Site.Sound.merged (h : s.Sound device) {report : MergeReport}
    (hmerge : applyMerge driver now s.server (collectPushRecords s.client).1 = .ok (server', report))
    (t : LedgerTable) :
    (∀ e ∈ ledger t s.server, e ∈ ledger t server') ∧
      (∀ e ∈ ledger t s.client, e ∈ ledger t server') ∧
      ∀ e ∈ ledger t server', e ∈ ledger t s.server ∨ e ∈ ledger t s.client := by
  rw [ledger_merged h.server hmerge t]
  refine ⟨fun e he => List.mem_append_left _ he, fun e he => ?_, fun e he => ?_⟩
  · rcases (h.copies s.client List.mem_cons_self).delivered t e he with hnew | hthere
    · by_cases hid : e.id ∈ s.server.ids t.kind
      · rw [← ledger_ids] at hid
        obtain ⟨e', he', hid⟩ := List.mem_map.mp hid
        rw [h.identified t e (mem_entries.mpr (.inr (.inl he))) e' (mem_entries.mpr (.inl he'))
          hid.symm]
        exact List.mem_append_left _ he'
      · exact List.mem_append_right _ (List.mem_filter.mpr ⟨hnew, decide_eq_true hid⟩)
    · exact List.mem_append_left _ hthere
  · rcases List.mem_append.mp he with he | he
    · exact .inl he
    · exact .inr ((unsynced_sublist t s.client).subset (List.mem_of_mem_filter he))

theorem SoundCopy.mono (h : SoundCopy device server d)
    (hserver : ∀ t, ∀ e ∈ ledger t server, e ∈ ledger t server') : SoundCopy device server' d :=
  { h with delivered := fun t e he => (h.delivered t e he).imp_right (hserver t e) }

/-- A copy with the same entries, as a stamp leaves them, all of them merged. -/
theorem SoundCopy.stamped (h : SoundCopy device server d) (ids : PushIds)
    (hserver : ∀ t, ∀ e ∈ ledger t d, e ∈ ledger t server') :
    SoundCopy device server' (stampSynced stamp ids d) where
  ids t := by
    rw [← ledger_ids, ledger_stamped, ledger_ids]
    exact h.ids t
  numbers t := by
    rw [ledger_stamped]
    exact h.numbers t
  delivered t e he := .inr (hserver t e (ledger_stamped stamp ids t d ▸ he))
  gapless t := by
    rw [ledger_stamped]
    exact h.gapless t

theorem Site.Sound.gapless_merged (h : s.Sound device) {report : MergeReport}
    (hmerge : applyMerge driver now s.server (collectPushRecords s.client).1 = .ok (server', report))
    (t : LedgerTable) : Gapless device (ledger t server') := by
  obtain ⟨hserver, hclient, hfrom⟩ := h.merged hmerge t
  intro e he hdevice
  rcases hfrom e he with he | he
  · refine ⟨(h.gapless t e he hdevice).1, fun n hpos hle => ?_⟩
    exact List.map_subset _ hserver ((h.gapless t e he hdevice).2 n hpos hle)
  · have hgapless := (h.copies s.client List.mem_cons_self).gapless t
    refine ⟨(hgapless e he hdevice).1, fun n hpos hle => ?_⟩
    exact List.map_subset _ hclient ((hgapless e he hdevice).2 n hpos hle)

/-- A request's new rows have ids that are nowhere yet. -/
theorem Site.Sound.exec_entry (h : s.Sound device) {r : Request} {e : Entry}
    (fresh : ∀ t : LedgerTable, ∀ i ∈ (r.exec s.client).ids t.kind, i ∉ s.client.ids t.kind →
      ∀ d ∈ s.dbs, i ∉ d.ids t.kind)
    (he : e ∈ ledger t (r.exec s.client)) :
    e ∈ ledger t s.client ∨ ∀ e' ∈ s.entries t, e.id ≠ e'.id := by
  obtain ⟨new, hgrown⟩ := exec_grown r s.client t
  have hids : ((ledger t (r.exec s.client)).map Entry.id).Nodup := by
    rw [ledger_ids]
    exact writes_nodup (exec_writes r s.client) ((h.copies s.client List.mem_cons_self).ids t)
  have hmem : e.id ∈ (r.exec s.client).ids t.kind := by
    rw [← ledger_ids]
    exact List.mem_map_of_mem he
  rw [hgrown.rows] at he
  rw [hgrown.rows, List.map_append] at hids
  refine (List.mem_append.mp he).imp_right fun hnew e' he' hid => ?_
  obtain ⟨d, hd, he'⟩ := List.mem_flatMap.mp he'
  have hold : e.id ∉ s.client.ids t.kind := by
    rw [← ledger_ids]
    exact fun hold => List.disjoint_of_nodup_append hids hold (List.mem_map_of_mem hnew)
  refine fresh t e.id hmem hold d hd ?_
  rw [hid, ← ledger_ids]
  exact List.mem_map_of_mem he'

/-- **One move keeps a site sound.** -/
theorem Site.Step.sound (hstep : s.Step device m s') (h : s.Sound device) : s'.Sound device := by
  have hclient := h.copies s.client List.mem_cons_self
  have hbackups : ∀ d ∈ s.backups, SoundCopy device s.server d :=
    fun d hd => h.copies d (List.mem_cons_of_mem _ hd)
  -- without a request the rows of the site are rows it had
  have hsame : (∀ t, s'.entries t ⊆ s.entries t) →
      ∀ t, ∀ e ∈ s'.entries t, ∀ e' ∈ s'.entries t, e.id = e'.id → e = e' :=
    fun hsubset t e he e' he' => h.identified t e (hsubset t he) e' (hsubset t he')
  cases hstep with
  | write r hdevice fresh =>
    refine ⟨h.server, h.gapless, List.forall_mem_cons.mpr ⟨hclient.write hdevice, hbackups⟩, ?_⟩
    have hcases : ∀ t, ∀ e ∈ Site.entries { s with client := r.exec s.client } t,
        e ∈ s.entries t ∨ e ∈ ledger t (r.exec s.client) ∧ ∀ e' ∈ s.entries t, e.id ≠ e'.id := by
      intro t e he
      rcases mem_entries.mp he with hserver | hnew | hbackup
      · exact .inl (mem_entries.mpr (.inl hserver))
      · refine (h.exec_entry fresh hnew).imp (fun hold => ?_) fun hid => ⟨hnew, hid⟩
        exact mem_entries.mpr (.inr (.inl hold))
      · exact .inl (mem_entries.mpr (.inr (.inr hbackup)))
    intro t e he e' he' hid
    rcases hcases t e he with hold | ⟨hnew, hnone⟩ <;>
      rcases hcases t e' he' with hold' | ⟨hnew', hnone'⟩
    · exact h.identified t e hold e' hold' hid
    · exact absurd hid.symm (hnone' e hold)
    · exact absurd hid (hnone e' hold')
    · have hids := (hclient.write hdevice).ids t
      rw [← ledger_ids] at hids
      exact List.inj_on_of_nodup_map hids hnew hnew' hid
  | push hmerge =>
    have hmerged := h.merged hmerge
    refine ⟨applyMerge_ok h.server hmerge, h.gapless_merged hmerge,
      List.forall_mem_cons.mpr ⟨hclient.stamped _ fun t => (hmerged t).2.1, fun d hd => ?_⟩,
      hsame fun t e he => ?_⟩
    · exact (hbackups d hd).mono fun t => (hmerged t).1
    · rcases mem_entries.mp he with hserver | hclient | hbackup
      · exact mem_entries.mpr (((hmerged t).2.2 e hserver).imp_right .inl)
      · exact mem_entries.mpr (.inr (.inl (ledger_stamped _ _ t s.client ▸ hclient)))
      · exact mem_entries.mpr (.inr (.inr hbackup))
  | lost hmerge =>
    have hmerged := h.merged hmerge
    refine ⟨applyMerge_ok h.server hmerge, h.gapless_merged hmerge,
      fun d hd => (h.copies d hd).mono fun t => (hmerged t).1, hsame fun t e he => ?_⟩
    rcases mem_entries.mp he with hserver | hcopy
    · exact mem_entries.mpr (((hmerged t).2.2 e hserver).imp_right .inl)
    · exact mem_entries.mpr (.inr hcopy)
  | backup =>
    refine ⟨h.server, h.gapless, fun d hd => ?_, hsame fun t e he => ?_⟩
    · rcases List.mem_cons.mp hd with rfl | hd
      · exact hclient
      · exact h.copies d hd
    · rcases mem_entries.mp he with hserver | hclient | ⟨d, hd, hbackup⟩
      · exact mem_entries.mpr (.inl hserver)
      · exact mem_entries.mpr (.inr (.inl hclient))
      rcases List.mem_cons.mp hd with rfl | hd
      · exact mem_entries.mpr (.inr (.inl hbackup))
      · exact mem_entries.mpr (.inr (.inr ⟨d, hd, hbackup⟩))
  | restore hcopy =>
    refine ⟨h.server, h.gapless, fun d hd => ?_, hsame fun t e he => ?_⟩
    · rcases List.mem_cons.mp hd with rfl | hd
      · exact hbackups d hcopy
      · exact hbackups d hd
    · rcases mem_entries.mp he with hserver | hclient | hbackup
      · exact mem_entries.mpr (.inl hserver)
      · exact mem_entries.mpr (.inr (.inr ⟨_, hcopy, hclient⟩))
      · exact mem_entries.mpr (.inr (.inr hbackup))

/-! ## Usable numbers -/

/-- **One move, where the numbers are usable**: they stay so exactly when it is careful. -/
theorem Site.Step.usable_iff (hstep : s.Step device m s') (h : s.Sound device) (hs : s.Usable) :
    s'.Usable ↔ Careful s m := by
  have hclient := h.copies s.client List.mem_cons_self
  cases hstep with
  | write r hdevice fresh =>
    subst hdevice
    constructor
    · intro hs' t hne e he hdevice
      obtain ⟨new, hgrown⟩ := exec_grown r s.client t
      refine Int.not_le.mp fun hle => ?_
      have hnew : new ≠ [] := by
        rintro rfl
        exact hne (hgrown.rows.trans (List.append_nil _))
      have hlength := List.length_pos_iff.mpr hnew
      -- the next number is taken on the server, and by the first new row
      have htaken := (h.gapless t e he hdevice).2 _ (one_le_next (hclient.gapless t)) hle
      obtain ⟨e', he', hnumber⟩ := List.mem_map.mp htaken
      obtain ⟨e'', he'', hnumber'⟩ :=
        List.mem_map.mp (hgrown.mem_number.mpr ⟨rfl, Int.le_refl _, by omega⟩)
      have hmem : e'' ∈ ledger t (r.exec s.client) := by
        rw [hgrown.rows]
        exact List.mem_append_right _ he''
      have hid := hs' t e'' hmem e' he' (hnumber.trans hnumber'.symm)
      rcases h.exec_entry fresh hmem with hold | hnone
      · have hlt := lt_nextSeq (List.mem_map_of_mem (f := Entry.number) hold)
        rw [show e''.seq = next t s.client r.env.deviceId from congrArg Prod.snd hnumber',
          show e''.deviceId = r.env.deviceId from congrArg Prod.fst hnumber'] at hlt
        exact absurd hlt (Int.lt_irrefl _)
      · exact hnone e' (mem_entries.mpr (.inl he')) hid.symm
    · intro hcareful t e he e' he' hnumber
      obtain ⟨new, hgrown⟩ := exec_grown r s.client t
      have he : e ∈ ledger t (r.exec s.client) := he
      rw [hgrown.rows] at he
      rcases List.mem_append.mp he with he | he
      · exact hs t e he e' he' hnumber
      · have hne : ledger t (r.exec s.client) ≠ ledger t s.client := by
          rw [hgrown.rows]
          exact fun heq => List.ne_nil_of_mem he (List.append_right_eq_self.mp heq)
        obtain ⟨hdevice, hle⟩ := hgrown.number_of_mem he
        have hdevice' : e'.deviceId = r.env.deviceId := (congrArg Prod.fst hnumber).trans hdevice
        have hseq : e'.seq = e.seq := congrArg Prod.snd hnumber
        exact absurd (hcareful t hne e' he' hdevice') (by omega)
  | push hmerge =>
    refine iff_of_true (fun t e he e' he' hnumber => ?_) trivial
    rw [ledger_stamped] at he
    rcases (h.merged hmerge t).2.2 e' he' with he' | he'
    · exact hs t e he e' he' hnumber
    · exact congrArg Entry.id (List.inj_on_of_nodup_map (hclient.numbers t) he' he hnumber)
  | lost hmerge =>
    refine iff_of_true (fun t e he e' he' hnumber => ?_) trivial
    rcases (h.merged hmerge t).2.2 e' he' with he' | he'
    · exact hs t e he e' he' hnumber
    · exact congrArg Entry.id (List.inj_on_of_nodup_map (hclient.numbers t) he' he hnumber)
  | backup => exact iff_of_true hs trivial
  | @restore copy hcopy =>
    constructor
    · exact fun hs' t e he => hs' t e ((unsynced_sublist t copy).subset he)
    · intro hcareful t e he e' he' hnumber
      by_cases hnew : e ∈ unsynced t copy
      · exact hcareful t e hnew e' he' hnumber
      · have hmem := List.mem_cons_of_mem s.client hcopy
        exact congrArg Entry.id (h.eq_of_number hmem he he' hnumber hnew)

/-- A number with two rows: the client's is unsynced, and its id is new to the server. -/
theorem Site.Sound.clash_unsynced (h : s.Sound device) {e e' : Entry} (he : e ∈ ledger t s.client)
    (he' : e' ∈ ledger t s.server) (hnumber : e'.number = e.number) (hid : e'.id ≠ e.id) :
    e ∈ unsynced t s.client ∧ e.id ∉ s.server.ids t.kind := by
  constructor
  · by_contra hsynced
    have heq := h.eq_of_number List.mem_cons_self he he' hnumber hsynced
    exact hid (congrArg Entry.id heq)
  · intro hthere
    rw [← ledger_ids] at hthere
    obtain ⟨e'', he'', hid''⟩ := List.mem_map.mp hthere
    have heq : e'' = e := h.identified t e'' (mem_entries.mpr (.inl he'')) e
      (mem_entries.mpr (.inr (.inl he))) hid''
    have hsame : e' = e'' := List.inj_on_of_nodup_map (ledger_numbers h.server t) he' he''
      (hnumber.trans (congrArg Entry.number heq.symm))
    exact hid (congrArg Entry.id (hsame.trans heq))

/-- **Where a number has two rows** the push is refused. -/
theorem Site.Sound.refused (h : s.Sound device) (hs : ¬s.Usable)
    (result : Db × MergeReport) :
    applyMerge driver now s.server (collectPushRecords s.client).1 ≠ .ok result := by
  intro hmerge
  obtain ⟨server', report⟩ := result
  refine hs fun t e he e' he' hnumber => ?_
  by_contra hid
  obtain ⟨hnew, hnone⟩ := h.clash_unsynced he he' hnumber hid
  have hnodup := ledger_numbers (applyMerge_ok h.server hmerge) t
  rw [ledger_merged h.server hmerge t, List.map_append] at hnodup
  refine List.disjoint_of_nodup_append hnodup (List.mem_map_of_mem he') ?_
  rw [hnumber]
  exact List.mem_map_of_mem (List.mem_filter.mpr ⟨hnew, decide_eq_true hnone⟩)

/-- Nothing but a restore makes the numbers usable again. -/
theorem Site.Step.unusable (hstep : s.Step device m s') (h : s.Sound device) (hs : ¬s.Usable)
    (hm : ∀ copy, m ≠ .restore copy) : ¬s'.Usable := by
  cases hstep with
  | write r hdevice fresh =>
    refine fun hs' => hs fun t e he e' he' hnumber => hs' t e ?_ e' he' hnumber
    obtain ⟨new, hgrown⟩ := exec_grown r s.client t
    show e ∈ ledger t (r.exec s.client)
    rw [hgrown.rows]
    exact List.mem_append_left _ he
  | push hmerge | lost hmerge => exact absurd hmerge (h.refused hs _)
  | backup => exact hs
  | restore => exact absurd rfl (hm _)

/-! ## Runs -/

/-- A run of moves, whatever they are. -/
def Site.Reaches (device : String) : Site → Site → Prop :=
  ReflTransGen fun s s' => ∃ m, s.Step device m s'

/-- A run of careful moves. -/
def Site.ReachesCarefully (device : String) : Site → Site → Prop :=
  ReflTransGen fun s s' => ∃ m, s.Step device m s' ∧ Careful s m

theorem Site.Sound.run {s₀ : Site} (h : Site.Reaches device s₀ s) (h₀ : s₀.Sound device) :
    s.Sound device := by
  induction h with
  | refl => exact h₀
  | tail _ hstep ih =>
    obtain ⟨m, hstep⟩ := hstep
    exact hstep.sound ih

theorem Site.Start.usable (h : s.Start device) : s.Usable := by
  intro t e he
  rw [h.client t] at he
  exact absurd he List.not_mem_nil

theorem usable_of_carefully {s₀ : Site} (h₀ : s₀.Start device)
    (h : Site.ReachesCarefully device s₀ s) : s.Sound device ∧ s.Usable := by
  induction h with
  | refl => exact ⟨h₀.sound, h₀.usable⟩
  | tail _ hstep ih =>
    obtain ⟨m, hstep, hcareful⟩ := hstep
    exact ⟨hstep.sound ih.1, (hstep.usable_iff ih.1 ih.2).mpr hcareful⟩

/-- **Numbers after a restore.** In every run of careful moves no number of the client is another
row's on the server, in any state; and of the moves from such a state the careful ones, and only
they, leave it so. In every run at all, once a number has two rows every push is refused, and stays
so until another backup is restored. -/
theorem usable_after_restores (device : String) (s₀ s : Site) (h₀ : s₀.Start device) :
    (Site.ReachesCarefully device s₀ s → s.Usable ∧
      ∀ m s', s.Step device m s' → (s'.Usable ↔ Careful s m)) ∧
    (Site.Reaches device s₀ s → ¬s.Usable →
      (∀ driver now result,
        applyMerge driver now s.server (collectPushRecords s.client).1 ≠ .ok result) ∧
      ∀ m s', s.Step device m s' → (∀ copy, m ≠ .restore copy) → ¬s'.Usable) := by
  refine ⟨fun h => ?_, fun h hs => ?_⟩
  · obtain ⟨hsound, husable⟩ := usable_of_carefully h₀ h
    exact ⟨husable, fun m s' hstep => hstep.usable_iff hsound husable⟩
  · have hsound := h₀.sound.run h
    exact ⟨fun driver now result => hsound.refused hs result,
      fun m s' hstep hm => hstep.unusable hsound hs hm⟩

/-! ## A rollback after a push -/

/-- A device that is new to an empty server. -/
def newDevice : Site := ⟨{}, {}, []⟩

theorem newDevice_start : newDevice.Start "device" where
  server := by decide
  gapless t := by cases t <;> exact .nil "device"
  client t := by cases t <;> rfl
  backups := rfl

/-- An id that is not the first one. -/
def secondId : IdSource := fun used =>
  ⟨(freshId ("x" :: used)).1, (freshId ("x" :: used)).2.1,
    fun h => (freshId ("x" :: used)).2.2 (List.mem_cons_of_mem _ h)⟩

/-- A deposit. -/
def deposit (newId : IdSource) : Request where
  env := { Env.sample with newId := newId }
  call := .cash { category := "deposit_opening", amountRaw := "1", note := "" }

/-- The rows a deposit leaves in an empty database, and their ids. -/
theorem deposit_ledger (t : LedgerTable) :
    ledger t ((deposit freshId).exec {}) =
        (match t with | .operations => [] | .cashMovements => [⟨"x", "device", 1⟩]) ∧
      ledger t ((deposit secondId).exec {}) =
        (match t with | .operations => [] | .cashMovements => [⟨"xx", "device", 1⟩]) := by
  cases t <;> exact ⟨by decide, by decide⟩

/-- The first deposit is a move of the new device. -/
theorem deposit_step (backups : List Db) (hbackups : ∀ d ∈ backups, d = {}) :
    Site.Step "device" ⟨{}, {}, backups⟩ (.write (deposit freshId))
      ⟨(deposit freshId).exec {}, {}, backups⟩ := by
  refine .write (deposit freshId) rfl fun t i _ _ d hd => ?_
  have hempty : d = {} := by
    rcases List.mem_cons.mp hd with rfl | hd
    · rfl
    rcases List.mem_cons.mp hd with rfl | hd
    · rfl
    · exact hbackups d hd
  subst hempty
  cases t <;> exact List.not_mem_nil

theorem usable_after_restores_deposit :
    (⟨(deposit freshId).exec {}, {}, []⟩ : Site).Usable ∧ ∀ m s',
      Site.Step "device" ⟨(deposit freshId).exec {}, {}, []⟩ m s' →
        (s'.Usable ↔ Careful ⟨(deposit freshId).exec {}, {}, []⟩ m) := by
  refine (usable_after_restores "device" newDevice _ newDevice_start).1
    (.single ⟨.write (deposit freshId), ?_, ?_⟩)
  · exact deposit_step [] fun d hd => absurd hd List.not_mem_nil
  · intro t _ e he
    cases t <;> exact absurd he List.not_mem_nil

/-- **A rollback after a push** gives a sent number to another row. -/
theorem not_usable : ¬∀ (device : String) (s₀ s : Site), s₀.Start device →
    Site.Reaches device s₀ s → s.Usable := by
  intro h
  have hmerges : (applyMerge Driver.strict "" {}
      (collectPushRecords ((deposit freshId).exec {})).1).toOption.isSome := by decide
  cases hmerge : applyMerge Driver.strict "" {}
      (collectPushRecords ((deposit freshId).exec {})).1 with
  | error => rw [hmerge] at hmerges; cases hmerges
  | ok result =>
  obtain ⟨server, report⟩ := result
  have hempty : ({} : Db).Ok := by decide
  have hledger : ∀ t, ledger t server =
      match t with | .operations => [] | .cashMovements => [⟨"x", "device", 1⟩] := by
    intro t
    rw [ledger_merged hempty hmerge t]
    cases t <;> decide
  have hbackup : Site.Step "device" newDevice .backup ⟨{}, {}, [{}]⟩ := .backup
  have hwrite := deposit_step [{}] (fun d hd => List.mem_singleton.mp hd)
  have hpush : Site.Step "device" ⟨(deposit freshId).exec {}, {}, [{}]⟩ (.push .strict "" "") _ :=
    .push hmerge
  have hrestore : Site.Step "device" ⟨stampSynced ""
      (collectPushRecords ((deposit freshId).exec {})).2 ((deposit freshId).exec {}), server, [{}]⟩
      (.restore {}) ⟨{}, server, [{}]⟩ := .restore (List.mem_singleton_self _)
  have hagain : Site.Step "device" ⟨{}, server, [{}]⟩ (.write (deposit secondId))
      ⟨(deposit secondId).exec {}, server, [{}]⟩ := by
    refine .write (deposit secondId) rfl fun t i hi _ d hd hthere => ?_
    rw [← ledger_ids, (deposit_ledger t).2] at hi
    rcases List.mem_cons.mp hd with rfl | hd
    · rw [← ledger_ids, hledger] at hthere
      cases t with
      | operations => exact absurd hi List.not_mem_nil
      | cashMovements =>
        have hi : i = "xx" := List.mem_singleton.mp hi
        exact absurd (hi.symm.trans (List.mem_singleton.mp hthere)) (by decide)
    · have hempty : d = {} := by
        rcases List.mem_cons.mp hd with rfl | hd
        · rfl
        · exact List.mem_singleton.mp hd
      subst hempty
      cases t <;> exact List.not_mem_nil hthere
  have husable := h "device" newDevice _ newDevice_start
    (.tail (.tail (.tail (.tail (.single ⟨_, hbackup⟩) ⟨_, hwrite⟩) ⟨_, hpush⟩) ⟨_, hrestore⟩)
      ⟨_, hagain⟩)
  have hnew : ⟨"xx", "device", 1⟩ ∈ ledger .cashMovements ((deposit secondId).exec {}) := by
    rw [(deposit_ledger _).2]
    exact List.mem_singleton_self _
  have hsent : ⟨"x", "device", 1⟩ ∈ ledger .cashMovements server := by
    rw [hledger]
    exact List.mem_singleton_self _
  have hid := husable .cashMovements _ hnew _ hsent rfl
  exact absurd hid (by decide)

end MyOriShop
