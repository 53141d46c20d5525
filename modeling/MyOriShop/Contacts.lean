import MyOriShop.Constrained
import MyOriShop.Constraints
import MyOriShop.Lib.Assoc
import MyOriShop.Lib.IsoMicros
import MyOriShop.Lib.Fallible

/-!
# Contacts: a customer's contacts (`app/services/customers.py`, `app/routes/customers.py`)

A save of the customer form may carry a whole set of contacts. It replaces the stored ones; without a
set they stay. The rows of one save are told apart in order by their timestamps alone, a microsecond
from one to the next, since their ids are random.

* `Save.perform` is `create_customer` or `update_customer` with contacts, one commit for the
  customer and the contacts.
* `contactsByKind` is `contacts_by_kind`, `editContacts` the contacts on the edit page.
* `Filed` says, in abstract terms, what was filed last for each customer and kind.

Results:
* `shown_after_saves`: after any saves the page shows what was filed last, in the order submitted.
* `resaved_contacts`: the edit page posted back is accepted and changes no contact of anyone.

Out of scope: the label of a contact, which is always empty, and `updated_at`.
-/

namespace MyOriShop

open Lib.Text Lib.IsoDate Lib.Assoc Lib.Transaction Lib.Fallible

/-! ## Rows and forms -/

/-- `CONTACT_KINDS`. -/
inductive ContactKind where
  | phone
  | telegram
  | email
  | social
  deriving DecidableEq

/-- The key of a kind. -/
def ContactKind.text : ContactKind → String
  | .phone => "phone"
  | .telegram => "telegram"
  | .email => "email"
  | .social => "social"

/-- The kinds in their order. -/
def contactKinds : List ContactKind := [.phone, .telegram, .email, .social]

/-- `kind in CONTACT_KINDS`. -/
def ContactKind.ofText (text : String) : Option ContactKind :=
  contactKinds.find? fun kind => kind.text = text

/-- A row of `customer_contacts`; the CHECK of the table is the type of `kind`. -/
structure CustomerContact where
  id : String
  customerId : String
  kind : ContactKind
  value : String
  createdAt : String

/-- A payload of contacts. -/
abbrev ContactForm := Dict String (List String)

/-- `CONTACT_VALUE_TOO_LONG_ERROR`. -/
def contactValueTooLongError : String := "Значение слишком длинное — не больше 300 символов."

/-- The errors of the values of a kind. -/
def valueErrors (kind : String) (errors : Errors) (values : List String) : Errors :=
  values.foldl (fun errors value => if strip value = "" then errors
    else errors.putIf (decide (300 < (strip value).length)) kind contactValueTooLongError) errors

/-- What ends a save early. -/
inductive SaveError where
  | raised (e : Exn)
  /-- `ValueError`: an unknown contact kind. -/
  | unknownKind (kind : String)
  /-- `OverflowError`: the timestamps run off the calendar. -/
  | overflow
  deriving DecidableEq

/-- The errors of one entry of a payload. -/
def validateEntry (errors : Errors) (e : String × List String) : Except SaveError Errors :=
  if (ContactKind.ofText e.1).isNone then .error (.unknownKind e.1)
  else .ok (valueErrors e.1 errors e.2)

/-- `_validate_contacts`. -/
def validateContacts (contacts : ContactForm) (errors : Errors) : Except SaveError Errors :=
  contacts.entries.foldlM validateEntry errors

/-- The values that are stored. -/
def keptValues (values : List String) : List String := (values.map strip).filter fun v => v ≠ ""

/-! ## Writing -/

/-- The values of one entry with their kind; the CHECK of the table refuses an unknown one. -/
def keptEntry (e : String × List String) : Except SaveError (List (ContactKind × String)) :=
  match ContactKind.ofText e.1 with
  | none => .error (.raised .integrity)
  | some kind => .ok ((keptValues e.2).map (Prod.mk kind))

/-- The values of a payload with their kinds. -/
def keptContacts (contacts : ContactForm) : Except SaveError (List (ContactKind × String)) := do
  let parts ← contacts.entries.mapM keptEntry
  return parts.flatten

/-- The new rows, each a microsecond after the one before. -/
def stampContacts (newId : IdSource) (customerId : String) (base : Reading) :
    List String → Nat → List (ContactKind × String) → Except SaveError (List CustomerContact)
  | _, _, [] => .ok []
  | used, offset, (kind, value) :: rest =>
    match base.plus offset with
    | none => .error .overflow
    | some moment =>
      let id : String := newId used
      (stampContacts newId customerId base (id :: used) (offset + 1) rest).bind fun rows =>
        .ok ({ id, customerId, kind, value, createdAt := moment.isoformat } :: rows)

/-- `_replace_contacts`. -/
def replaceContacts (newId : IdSource) (base : Reading) (customerId : String)
    (contacts : ContactForm) (rows : List CustomerContact) :
    Except SaveError (List CustomerContact) := do
  let kept ← keptContacts contacts
  let new ← stampContacts newId customerId base (rows.map CustomerContact.id) 0 kept
  return (rows.filter fun r => r.customerId ≠ customerId) ++ new

/-- The database with the table of contacts. -/
structure Book where
  db : Db
  contacts : List CustomerContact

/-- A save of the customer form, of a new customer where it names none; `now` is the reading of
the clock for the contacts. -/
structure Save where
  env : Env
  target : Option String
  form : CustomerForm
  contacts : Option ContactForm
  now : Reading

/-- The errors of a save: an unknown customer and a missing name answer alone. -/
def Save.errors (s : Save) (d : Db) : Except SaveError Errors :=
  if s.target.any fun id => (d.find .customer id).isNone then
    .ok [("customer", "Покупатель не найден.")]
  else if strip s.form.name = "" then .ok (customerErrors s.form)
  else match s.contacts with
    | none => .ok (customerErrors s.form)
    | some contacts => validateContacts contacts (customerErrors s.form)

/-- The write of the customer. -/
def Save.write (s : Save) : Act (Outcome String) :=
  match s.target with
  | none => createCustomer s.env s.form
  | some id => updateCustomer s.env id s.form

/-- The contacts after the write: `None` leaves them. -/
def Save.file (s : Save) (customerId : String) (rows : List CustomerContact) :
    Except SaveError (List CustomerContact) :=
  match s.contacts with
  | none => .ok rows
  | some contacts => replaceContacts s.env.newId s.now customerId contacts rows

/-- `create_customer` and `update_customer`: what a save answers, and what it commits. -/
def Save.perform (s : Save) (b : Book) : Except SaveError (Outcome String) × Book :=
  match s.errors b.db with
  | .error e => (.error e, b)
  | .ok errors =>
    if errors ≠ [] then (.ok (.refused errors), b)
    else match s.write.reply b.db with
      | .error e => (.error (.raised e), b)
      | .ok (.done customerId) =>
        match s.file customerId b.contacts with
        | .error e => (.error e, b)
        | .ok rows => (.ok (.done customerId), ⟨s.write.exec b.db, rows⟩)
      | .ok answer => (.ok answer, b)

/-- The book after saves. -/
def runSaves (b : Book) (saves : List Save) : Book := saves.foldl (fun b s => (s.perform b).2) b

/-! ## Reading -/

/-- `ORDER BY created_at, id`. -/
def CustomerContact.before (x y : CustomerContact) : Prop :=
  x.createdAt < y.createdAt ∨ x.createdAt = y.createdAt ∧ x.id ≤ y.id

instance : DecidableRel CustomerContact.before := fun _ _ => inferInstanceAs (Decidable (_ ∨ _))

/-- The rows of a customer in order. -/
def contactsOf (b : Book) (customerId : String) : List CustomerContact :=
  (b.contacts.filter fun r => r.customerId = customerId).insertionSort CustomerContact.before

/-- `contacts_by_kind`. -/
def contactsByKind (b : Book) (customerId : String) : List (ContactKind × List CustomerContact) :=
  contactKinds.map fun kind => (kind, (contactsOf b customerId).filter fun r => r.kind = kind)

/-- A payload that has something for every kind. -/
def everyKind (values : ContactKind → List String) : ContactForm where
  entries := contactKinds.map fun kind => (kind.text, values kind)
  keys := by
    rw [List.map_map]
    exact (by decide : (contactKinds.map ContactKind.text).Nodup)

/-- `values or [""]`. -/
def orBlank : Option (List String) → List String
  | some (value :: values) => value :: values
  | some [] | none => [""]

/-- `_contact_rows`: a blank row where there is nothing. -/
def contactRows (raw : ContactForm) : ContactForm :=
  everyKind fun kind => orBlank (raw.get? kind.text)

/-- The values that the page of a customer shows for a kind. -/
def shownContacts (b : Book) (customerId : String) (kind : ContactKind) : List String :=
  ((contactsByKind b customerId).find? fun e => e.1 = kind).elim []
    fun e => e.2.map CustomerContact.value

/-- The fields on the edit page. -/
def editForm (c : Customer) : CustomerForm where
  name := c.name
  surname := c.surname.getD ""
  consultantNumber := c.consultantNumber.getD ""
  address := c.address.getD ""

/-- The contacts on the edit page. -/
def editContacts (b : Book) (customerId : String) : ContactForm :=
  contactRows (everyKind (shownContacts b customerId))

/-! ## What was filed last -/

/-- What was filed last, for each customer and kind. -/
abbrev Filed := String → ContactKind → List String

/-- What an answered save files: a payload speaks for every kind, named or not. -/
def Save.filed (s : Save) (answer : Except SaveError (Outcome String)) (f : Filed) : Filed :=
  match answer, s.contacts with
  | .ok (.done customerId), some contacts =>
    Function.update f customerId fun kind => keptValues ((contacts.get? kind.text).getD [])
  | _, _ => f

/-- What is filed after saves, given their answers. -/
def filedBy : Book → List Save → Filed → Filed
  | _, [], f => f
  | b, s :: saves, f => filedBy (s.perform b).2 saves (s.filed (s.perform b).1 f)

/-! ## The kinds -/

theorem ContactKind.ofText_text (kind : ContactKind) : ofText kind.text = some kind := by
  cases kind <;> decide

theorem ContactKind.text_of_ofText {text : String} {kind : ContactKind}
    (h : ofText text = some kind) : kind.text = text := by
  simpa using List.find?_some h

theorem ContactKind.text_inj {kind kind' : ContactKind} (h : kind.text = kind'.text) :
    kind = kind' := by
  have hkind := ofText_text kind
  rw [h, ofText_text] at hkind
  exact (Option.some.inj hkind).symm

theorem mem_contactKinds (kind : ContactKind) : kind ∈ contactKinds := by
  cases kind <;> decide

/-! ## One replacement -/

/-- The values of a kind among those of some entries. -/
theorem kept_of_entries {entries : List (String × List String)}
    {parts : List (List (ContactKind × String))} (hkeys : (entries.map Prod.fst).Nodup)
    (h : entries.mapM keptEntry = .ok parts) (kind : ContactKind) :
    ((parts.flatten.filter fun p => p.1 = kind).map Prod.snd) =
      keptValues (((entries.find? fun e => e.1 = kind.text).map Prod.snd).getD []) := by
  induction entries generalizing parts with
  | nil =>
    cases h
    rfl
  | cons e entries ih =>
    rw [List.map_cons, List.nodup_cons] at hkeys
    rw [mapM_ok_iff, List.forall₂_cons_left_iff] at h
    obtain ⟨part, parts, hpart, hparts, rfl⟩ := h
    have hrest := ih hkeys.2 (mapM_ok_iff.mpr hparts)
    unfold keptEntry at hpart
    split at hpart
    · cases hpart
    · rename_i kind' hkind'
      cases hpart
      have htext := ContactKind.text_of_ofText hkind'
      rw [List.flatten_cons, List.filter_append, List.map_append, hrest]
      by_cases hk : kind' = kind
      · subst hk
        have hnone : (entries.find? fun e => e.1 = kind'.text) = none := by
          rw [List.find?_eq_none]
          intro e' he' hsame
          exact hkeys.1 (htext ▸ decide_eq_true_iff.mp hsame ▸ List.mem_map_of_mem he')
        rw [List.find?_cons_of_pos (by simpa using htext.symm), hnone]
        have hall : ((keptValues e.2).map (Prod.mk kind')).filter (fun p => p.1 = kind') =
            (keptValues e.2).map (Prod.mk kind') := by simp
        rw [hall, List.map_map]
        simp [keptValues, Function.comp_def]
      · rw [List.find?_cons_of_neg (by
          simpa [← htext] using fun hsame => hk (ContactKind.text_inj hsame))]
        simp [hk]

/-- What the new rows of a save are. -/
structure Stamped (customerId : String) (base : Reading) (offset : Nat)
    (kept : List (ContactKind × String)) (rows : List CustomerContact) : Prop where
  values : (rows.map fun r => (r.kind, r.value)) = kept
  owner : ∀ r ∈ rows, r.customerId = customerId
  times : ∀ r ∈ rows, ∃ k t, offset ≤ k ∧ base.plus k = some t ∧ r.createdAt = t.isoformat
  ordered : rows.Pairwise fun x y => x.createdAt < y.createdAt

/-- The induction is on the values; the first timestamp is before all that follow. -/
theorem stamped {newId : IdSource} {customerId : String} {base : Reading} {used : List String}
    {offset : Nat} {kept : List (ContactKind × String)} {rows : List CustomerContact}
    (h : stampContacts newId customerId base used offset kept = .ok rows) :
    Stamped customerId base offset kept rows := by
  induction kept generalizing used offset rows with
  | nil =>
    cases h
    exact ⟨rfl, fun _ h => absurd h List.not_mem_nil, fun _ h => absurd h List.not_mem_nil, .nil⟩
  | cons p kept ih =>
    obtain ⟨kind, value⟩ := p
    simp only [stampContacts] at h
    split at h
    · cases h
    · rename_i moment hmoment
      obtain ⟨rest, hrest, h⟩ := bind_ok_iff.mp h
      cases h
      have hi := ih hrest
      refine ⟨by simp [hi.values], ?_, ?_, ?_⟩
      · exact List.forall_mem_cons.mpr ⟨rfl, hi.owner⟩
      · refine List.forall_mem_cons.mpr ⟨⟨offset, moment, le_refl _, hmoment, rfl⟩, ?_⟩
        intro r hr
        obtain ⟨k, t, hk, ht, hcreated⟩ := hi.times r hr
        exact ⟨k, t, by omega, ht, hcreated⟩
      · refine List.pairwise_cons.mpr ⟨fun r hr => ?_, hi.ordered⟩
        obtain ⟨k, t, hk, ht, hcreated⟩ := hi.times r hr
        rw [hcreated]
        refine Reading.isoformat_lt ?_
        rw [Reading.instant_plus hmoment, Reading.instant_plus ht]
        omega

/-- Rows in the order of their timestamps are read in that order. -/
theorem read_in_order {rows : List CustomerContact}
    (h : rows.Pairwise fun x y => x.createdAt < y.createdAt) :
    rows.insertionSort CustomerContact.before = rows :=
  (h.imp fun hlt => Or.inl hlt).insertionSort_eq

section Replace

variable {newId : IdSource} {base : Reading} {customerId : String} {contacts : ContactForm}
  {rows rows' : List CustomerContact} {d d' : Db}

theorem replaceContacts_ok (h : replaceContacts newId base customerId contacts rows = .ok rows') :
    ∃ kept new, keptContacts contacts = .ok kept ∧ Stamped customerId base 0 kept new ∧
      rows' = (rows.filter fun r => r.customerId ≠ customerId) ++ new := by
  obtain ⟨kept, hkept, h⟩ := bind_ok_iff.mp h
  obtain ⟨new, hnew, h⟩ := bind_ok_iff.mp h
  cases h
  exact ⟨kept, new, hkept, stamped hnew, rfl⟩

/-- The rows of the customer are the new ones. -/
theorem contactsOf_replaced {kept : List (ContactKind × String)} {new : List CustomerContact}
    (h : Stamped customerId base 0 kept new) :
    contactsOf ⟨d, (rows.filter fun r => r.customerId ≠ customerId) ++ new⟩ customerId = new := by
  have hold : ((rows.filter fun r => r.customerId ≠ customerId).filter
      fun r => r.customerId = customerId) = [] := by
    simp [List.filter_filter]
  have hnew : (new.filter fun r => r.customerId = customerId) = new := by
    simpa using h.owner
  rw [contactsOf, List.filter_append, hold, hnew, List.nil_append, read_in_order h.ordered]

/-- The rows of the others stay. -/
theorem contactsOf_other {kept : List (ContactKind × String)} {new : List CustomerContact}
    (h : Stamped customerId base 0 kept new) {other : String} (hne : other ≠ customerId) :
    contactsOf ⟨d', (rows.filter fun r => r.customerId ≠ customerId) ++ new⟩ other =
      contactsOf ⟨d, rows⟩ other := by
  have hold : ((rows.filter fun r => r.customerId ≠ customerId).filter
      fun r => r.customerId = other) = rows.filter fun r => r.customerId = other := by
    rw [List.filter_filter]
    refine List.filter_congr fun r _ => ?_
    by_cases hr : r.customerId = other <;> simp [hr, hne]
  have hnew : (new.filter fun r => r.customerId = other) = [] := by
    simpa using fun r hr => h.owner r hr ▸ hne.symm
  unfold contactsOf
  rw [List.filter_append, hold, hnew, List.append_nil]

end Replace

/-! ## What the page shows -/

theorem shownContacts_eq (b : Book) (customerId : String) (kind : ContactKind) :
    shownContacts b customerId kind =
      (((contactsOf b customerId).filter fun r => r.kind = kind).map CustomerContact.value) := by
  cases kind <;> rfl

/-- After a replacement the page shows the payload. -/
theorem shown_replaced {newId : IdSource} {base : Reading} {customerId : String}
    {contacts : ContactForm} {rows rows' : List CustomerContact} {d d' : Db}
    (h : replaceContacts newId base customerId contacts rows = .ok rows') :
    shownContacts ⟨d', rows'⟩ = Function.update (shownContacts ⟨d, rows⟩) customerId
      fun kind => keptValues ((contacts.get? kind.text).getD []) := by
  obtain ⟨kept, new, hkept, hstamped, rfl⟩ := replaceContacts_ok h
  obtain ⟨parts, hparts, hkept⟩ := bind_ok_iff.mp hkept
  cases hkept
  funext other kind
  rw [shownContacts_eq]
  by_cases hother : other = customerId
  · subst hother
    rw [Function.update_self, contactsOf_replaced hstamped]
    have hvalues : ((new.filter fun r => r.kind = kind).map CustomerContact.value) =
        ((parts.flatten.filter fun p => p.1 = kind).map Prod.snd) := by
      rw [← hstamped.values, List.filter_map, List.map_map]
      rfl
    rw [hvalues, kept_of_entries contacts.keys hparts, Dict.get?]
  · rw [Function.update_of_ne hother, contactsOf_other (d := d) hstamped hother, shownContacts_eq]

/-- **One save**: what the page shows afterwards is what the save has filed. -/
theorem shown_perform (s : Save) (b : Book) :
    shownContacts (s.perform b).2 = s.filed (s.perform b).1 (shownContacts b) := by
  unfold Save.perform
  split
  · rfl
  · split_ifs
    · rfl
    · split
      · rfl
      · rename_i customerId hreply
        split
        · rfl
        · rename_i rows hfile
          unfold Save.file at hfile
          unfold Save.filed
          split at hfile
          · rename_i hnone
            cases hfile
            rw [hnone]
            rfl
          · rename_i contacts hsome
            rw [hsome]
            exact shown_replaced hfile
      · rename_i answer hdone hreply
        unfold Save.filed
        split
        · rename_i heq _
          exact absurd (Except.ok.inj heq) (hdone _)
        · rfl

/-- After any saves, answered in any way, the page of every customer shows for every kind what the
last accepted payload for the customer had, stripped, without blanks and in the order submitted. -/
theorem shown_after_saves (b : Book) (saves : List Save) :
    shownContacts (runSaves b saves) = filedBy b saves (shownContacts b) := by
  induction saves generalizing b with
  | nil => rfl
  | cons s saves ih =>
    show shownContacts (runSaves (s.perform b).2 saves) =
      filedBy (s.perform b).2 saves (s.filed (s.perform b).1 (shownContacts b))
    rw [ih, shown_perform]

/-! ## Accepted saves -/

section Accepted

variable {d : Db} {env : Env} {form : CustomerForm}

theorem valueErrors_eq_nil {kind : String} {errors : Errors} {values : List String} :
    valueErrors kind errors values = [] ↔ errors = [] ∧ ∀ v ∈ keptValues values, v.length ≤ 300 := by
  unfold valueErrors keptValues
  induction values generalizing errors with
  | nil => simp
  | cons value values ih =>
    rw [List.foldl_cons, ih]
    by_cases hblank : strip value = ""
    · simp [hblank]
    · have hkept : ((value :: values).map strip).filter (fun v => v ≠ "") =
          strip value :: (values.map strip).filter fun v => v ≠ "" := by
        rw [List.map_cons, List.filter_cons_of_pos (by simpa using hblank)]
      rw [if_neg hblank, Errors.putIf_eq_nil, decide_eq_false_iff_not, not_lt, hkept,
        List.forall_mem_cons]
      exact ⟨fun h => ⟨h.1.2, h.1.1, h.2⟩, fun h => ⟨⟨h.2.1, h.1⟩, h.2.2⟩⟩

/-- An entry that passes: a known kind, and values that fit. -/
def EntryFits (e : String × List String) : Prop :=
  (ContactKind.ofText e.1).isSome ∧ ∀ v ∈ keptValues e.2, v.length ≤ 300

theorem validateContacts_eq_nil {contacts : ContactForm} {errors : Errors} :
    validateContacts contacts errors = .ok [] ↔ errors = [] ∧ ∀ e ∈ contacts.entries, EntryFits e := by
  unfold validateContacts
  induction contacts.entries generalizing errors with
  | nil => simp [pure, Except.pure]
  | cons e entries ih =>
    rw [List.foldlM_cons, bind_ok_iff, List.forall_mem_cons]
    constructor
    · rintro ⟨errors', hentry, hrest⟩
      obtain ⟨rfl, hentries⟩ := ih.mp hrest
      unfold validateEntry at hentry
      split_ifs at hentry with hkind
      obtain ⟨hnil, hfits⟩ := valueErrors_eq_nil.mp (Except.ok.inj hentry)
      have hknown : (ContactKind.ofText e.1).isSome := by
        rw [← Option.not_isNone, Bool.not_eq_true']
        exact Bool.eq_false_iff.mpr hkind
      exact ⟨hnil, ⟨hknown, hfits⟩, hentries⟩
    · rintro ⟨rfl, ⟨hkind, hfits⟩, hentries⟩
      refine ⟨[], ?_, ih.mpr ⟨rfl, hentries⟩⟩
      unfold validateEntry
      rw [← Option.not_isNone, Bool.not_eq_true'] at hkind
      rw [hkind, if_neg Bool.false_ne_true, valueErrors_eq_nil.mpr ⟨rfl, hfits⟩]

/-- The row of a new customer. -/
def newCustomer (env : Env) (form : CustomerForm) (d : Db) : Customer where
  id := env.newId d.usedIds
  name := strip form.name
  surname := orNone (strip form.surname)
  consultantNumber := orNone (strip form.consultantNumber)
  address := orNone (strip form.address)
  searchLc := some (form.searchLc env)
  createdAt := (env.clock 0).isoformat
  updatedAt := (env.clock 0).isoformat

theorem ok_newCustomer (hd : d.Ok) : (d.insert .customer [newCustomer env form d]).Ok := by
  have hids : d.ids .customer ⊆
      (d.get .customer ++ [newCustomer env form d]).map (rowId .customer) := by
    rw [List.map_append]
    exact List.subset_append_left _ _
  refine (Db.ok_set_iff hd hids).mpr ⟨?_, trivial, fun _ _ ref href => absurd href List.not_mem_nil⟩
  rw [List.map_append, List.map_singleton, List.nodup_append]
  refine ⟨hd.nodup .customer, List.nodup_singleton _, ?_⟩
  rintro a ha b hb rfl
  have hfresh := (env.newId d.usedIds).2.2
  rw [List.mem_singleton.mp hb] at ha
  exact hfresh (mem_usedIds ha)

theorem createCustomer_accepted (hd : d.Ok) (hform : customerErrors form = []) :
    (createCustomer env form).reply d = .ok (.done (newCustomer env form d).id) ∧
      (createCustomer env form).exec d = d.insert .customer [newCustomer env form d] := by
  have hcheck : (d.insert .customer [newCustomer env form d]).check = true :=
    (Db.check_iff _).mpr (ok_newCustomer hd)
  have hrun : createCustomer env form ⟨d, d, 0, 0⟩ =
      (.ok (.done (newCustomer env form d).id), ⟨d.insert .customer [newCustomer env form d],
        d.insert .customer [newCustomer env form d], 1, 1⟩) := by
    unfold createCustomer
    rw [(Errors.stop_ok_iff (u := ())).mpr hform]
    refine (bind_run_ok rfl).trans ((bind_run_ok rfl).trans ((bind_run_ok rfl).trans ?_))
    exact (bind_run_ok (a := ()) (if_pos hcheck)).trans rfl
  unfold Tx.reply Tx.exec
  rw [hrun]
  exact ⟨rfl, rfl⟩

theorem ok_editCustomer (hd : d.Ok) (customerId stamp : String) :
    (d.edit .customer customerId (form.onto env stamp)).Ok :=
  (Db.ok_edit_iff (k := .customer) hd (edited_customer env form stamp) fun _ => rfl).mpr trivial

theorem updateCustomer_accepted (hd : d.Ok) (hform : customerErrors form = []) {customerId : String}
    (hfound : (d.find .customer customerId).isSome) :
    (updateCustomer env customerId form).reply d = .ok (.done customerId) ∧
      (updateCustomer env customerId form).exec d =
        d.edit .customer customerId (form.onto env (env.clock 0).isoformat) := by
  have hcheck : (d.edit .customer customerId (form.onto env (env.clock 0).isoformat)).check = true :=
    (Db.check_iff _).mpr (ok_editCustomer hd _ _)
  have hnone : ¬(d.find .customer customerId).isNone = true := by
    rw [← Option.not_isNone, Bool.not_eq_true'] at hfound
    simp [hfound]
  have hrun : updateCustomer env customerId form ⟨d, d, 0, 0⟩ = (.ok (.done customerId),
      ⟨d.edit .customer customerId (form.onto env (env.clock 0).isoformat),
        d.edit .customer customerId (form.onto env (env.clock 0).isoformat), 1, 1⟩) := by
    unfold updateCustomer
    refine (bind_run_ok rfl).trans ?_
    dsimp only
    rw [if_neg hnone, (Errors.stop_ok_iff (u := ())).mpr hform]
    refine (bind_run_ok rfl).trans ((bind_run_ok (a := ()) ?_).trans rfl)
    exact (bind_run_ok rfl).trans (if_pos hcheck)
  unfold Tx.reply Tx.exec
  rw [hrun]
  exact ⟨rfl, rfl⟩

end Accepted

/-! ## What saves leave -/

/-- The row has what a form says. -/
structure SavedAs (env : Env) (form : CustomerForm) (c : Customer) : Prop where
  name : c.name = strip form.name
  surname : c.surname = orNone (strip form.surname)
  consultantNumber : c.consultantNumber = orNone (strip form.consultantNumber)
  address : c.address = orNone (strip form.address)
  searchLc : c.searchLc = some (form.searchLc env)

theorem savedAs_onto (env : Env) (form : CustomerForm) (stamp : String) (c : Customer) :
    SavedAs env form (form.onto env stamp c) := by
  unfold CustomerForm.onto
  dsimp only
  split_ifs with h
  · obtain ⟨hname, hsurname, hnumber, haddress, hsearch⟩ := h
    exact ⟨hname.symm, hsurname.symm, hnumber.symm, haddress.symm, hsearch.symm⟩
  · constructor <;> dsimp only

/-- A row that has what the form says is not written. -/
theorem onto_of_savedAs {env : Env} {form : CustomerForm} {c : Customer} (h : SavedAs env form c)
    (stamp : String) : form.onto env stamp c = c := by
  unfold CustomerForm.onto
  dsimp only
  rw [if_pos ⟨h.name.symm, h.surname.symm, h.consultantNumber.symm, h.address.symm,
    h.searchLc.symm⟩]

/-- A stored value of a contact. -/
structure StoredValue (value : String) : Prop where
  stripped : strip value = value
  filled : value ≠ ""
  fits : value.length ≤ 300

/-- What saves keep, with one `lower` for all requests. -/
structure Tidy (lower : String → String) (b : Book) : Prop where
  ok : b.db.Ok
  customers : ∀ c ∈ b.db.customers, ∃ env form, env.lower = lower ∧ customerErrors form = [] ∧
    SavedAs env form c
  values : ∀ r ∈ b.contacts, StoredValue r.value

/-- No errors, whatever the payload is, mean an existing customer and a form without errors. -/
theorem Save.errors_nil {s : Save} {d : Db} (h : s.errors d = .ok []) :
    (∀ id ∈ s.target, (d.find .customer id).isSome) ∧ customerErrors s.form = [] ∧
      ∀ contacts ∈ s.contacts, ∀ e ∈ contacts.entries, EntryFits e := by
  unfold Save.errors at h
  split_ifs at h with htarget hname
  · cases h
  · have hnone : customerErrors s.form ≠ [] := by simp [customerErrors, hname]
    exact absurd (Except.ok.inj h) hnone
  · have hfound : ∀ id ∈ s.target, (d.find .customer id).isSome := by
      intro id hid
      rw [Option.mem_def.mp hid, Option.any_some, Bool.not_eq_true] at htarget
      rw [← Option.not_isNone, htarget, Bool.not_false]
    split at h
    · rename_i hnone
      exact ⟨hfound, Except.ok.inj h, fun _ hc => by simp [hnone] at hc⟩
    · rename_i contacts hsome
      obtain ⟨hform, hentries⟩ := validateContacts_eq_nil.mp h
      refine ⟨hfound, hform, fun contacts' hc => ?_⟩
      rw [hsome, Option.mem_some_iff] at hc
      exact hc ▸ hentries

theorem storedValue_of_kept {values : List String} {v : String} (h : v ∈ keptValues values)
    (hfits : v.length ≤ 300) : StoredValue v := by
  obtain ⟨hmem, hfilled⟩ := List.mem_filter.mp h
  obtain ⟨raw, -, rfl⟩ := List.mem_map.mp hmem
  exact ⟨strip_strip raw, by simpa using hfilled, hfits⟩

/-- The values of new rows passed the checks. -/
theorem storedValue_of_replaced {newId : IdSource} {base : Reading} {customerId : String}
    {contacts : ContactForm} {rows rows' : List CustomerContact}
    (hfits : ∀ e ∈ contacts.entries, EntryFits e) (hrows : ∀ r ∈ rows, StoredValue r.value)
    (h : replaceContacts newId base customerId contacts rows = .ok rows') :
    ∀ r ∈ rows', StoredValue r.value := by
  obtain ⟨kept, new, hkept, hstamped, rfl⟩ := replaceContacts_ok h
  obtain ⟨parts, hparts, hkept⟩ := bind_ok_iff.mp hkept
  cases hkept
  refine List.forall_mem_append.mpr ⟨fun r hr => hrows r (List.mem_of_mem_filter hr), ?_⟩
  intro r hr
  have hpair : (r.kind, r.value) ∈ parts.flatten :=
    hstamped.values ▸ List.mem_map_of_mem (f := fun r => (r.kind, r.value)) hr
  obtain ⟨part, hpart, hmem⟩ := List.mem_flatten.mp hpair
  obtain ⟨e, he, hentry⟩ := mem_of_mapM_ok hparts hpart
  unfold keptEntry at hentry
  split at hentry
  · cases hentry
  · cases hentry
    obtain ⟨v, hv, hsame⟩ := List.mem_map.mp hmem
    cases hsame
    exact storedValue_of_kept hv ((hfits e he).2 _ hv)

/-- The write of an accepted save, and the id that it answers. -/
structure Accepts (env : Env) (form : CustomerForm) (d : Db) (x : Act (Outcome String))
    (customerId : String) : Prop where
  reply : x.reply d = .ok (.done customerId)
  ok : (x.exec d).Ok
  customers : ∀ c ∈ (x.exec d).customers, c ∈ d.customers ∨ SavedAs env form c

theorem accepts_createCustomer {env : Env} {form : CustomerForm} {d : Db} (hd : d.Ok)
    (hform : customerErrors form = []) :
    Accepts env form d (createCustomer env form) (newCustomer env form d).id := by
  obtain ⟨hreply, hexec⟩ := @createCustomer_accepted d env form hd hform
  refine ⟨hreply, hexec ▸ ok_newCustomer hd, fun c hc => ?_⟩
  rw [hexec] at hc
  rcases List.mem_append.mp hc with hold | hnew
  · exact .inl hold
  · rw [List.mem_singleton.mp hnew]
    right
    constructor <;> dsimp only [newCustomer]

theorem accepts_updateCustomer {env : Env} {form : CustomerForm} {d : Db} (hd : d.Ok)
    (hform : customerErrors form = []) {customerId : String}
    (hfound : (d.find .customer customerId).isSome) :
    Accepts env form d (updateCustomer env customerId form) customerId := by
  obtain ⟨hreply, hexec⟩ := @updateCustomer_accepted d env form hd hform customerId hfound
  refine ⟨hreply, hexec ▸ ok_editCustomer hd _ _, fun c hc => ?_⟩
  rw [hexec] at hc
  obtain ⟨c', hc', rfl⟩ := List.mem_map.mp hc
  split_ifs
  · exact .inr (savedAs_onto _ _ _ _)
  · exact .inl hc'

theorem Save.accepts {s : Save} {d : Db} (hd : d.Ok) (h : s.errors d = .ok []) :
    ∃ customerId, Accepts s.env s.form d s.write customerId := by
  obtain ⟨hfound, hform, -⟩ := s.errors_nil h
  unfold Save.write
  split
  · exact ⟨_, accepts_createCustomer hd hform⟩
  · rename_i id htarget
    exact ⟨id, accepts_updateCustomer hd hform (hfound id htarget)⟩

/-- **One save** keeps the book. -/
theorem tidy_perform {lower : String → String} {s : Save} {b : Book} (hs : s.env.lower = lower)
    (h : Tidy lower b) : Tidy lower (s.perform b).2 := by
  unfold Save.perform
  split
  · exact h
  · rename_i errors herrors
    split_ifs with hnil
    · exact h
    · rw [not_not.mp hnil] at herrors
      obtain ⟨customerId, haccepts⟩ := Save.accepts h.ok herrors
      obtain ⟨-, hform, hfits⟩ := Save.errors_nil herrors
      rw [haccepts.reply]
      dsimp only
      split
      · exact h
      · rename_i rows hfile
        refine ⟨haccepts.ok, fun c hc => ?_, ?_⟩
        · rcases haccepts.customers c hc with hold | hsaved
          · exact h.customers c hold
          · exact ⟨s.env, s.form, hs, hform, hsaved⟩
        · unfold Save.file at hfile
          split at hfile
          · cases hfile
            exact h.values
          · rename_i contacts hsome
            exact storedValue_of_replaced (hfits contacts hsome) h.values hfile

theorem tidy_runSaves {lower : String → String} {saves : List Save} {b : Book}
    (hsaves : ∀ s ∈ saves, s.env.lower = lower) (h : Tidy lower b) : Tidy lower (runSaves b saves) := by
  induction saves generalizing b with
  | nil => exact h
  | cons s saves ih =>
    obtain ⟨hs, hrest⟩ := List.forall_mem_cons.mp hsaves
    exact ih hrest (tidy_perform hs h)

/-! ## The edit page posted back -/

theorem get?_everyKind (values : ContactKind → List String) (kind : ContactKind) :
    (everyKind values).get? kind.text = some (values kind) := by
  cases kind <;> rfl

theorem editContacts_eq (b : Book) (customerId : String) : editContacts b customerId =
    everyKind fun kind => orBlank (some (shownContacts b customerId kind)) := by
  unfold editContacts contactRows
  refine congrArg everyKind ?_
  funext kind
  rw [get?_everyKind]

/-- The values of a page are stored values. -/
theorem storedValue_shown {b : Book} (h : ∀ r ∈ b.contacts, StoredValue r.value)
    {customerId : String} {kind : ContactKind} :
    ∀ v ∈ shownContacts b customerId kind, StoredValue v := by
  intro v hv
  rw [shownContacts_eq] at hv
  obtain ⟨r, hr, rfl⟩ := List.mem_map.mp hv
  have hmem := List.mem_of_mem_filter hr
  rw [contactsOf, List.mem_insertionSort] at hmem
  exact h r (List.mem_of_mem_filter hmem)

/-- Stored values are kept as they are, and a blank row is no value. -/
theorem keptValues_orBlank {values : List String} (h : ∀ v ∈ values, StoredValue v) :
    keptValues (orBlank (some values)) = values := by
  cases values with
  | nil => rfl
  | cons v vs =>
    have hmap : (v :: vs).map strip = v :: vs :=
      (List.map_congr_left fun w hw => (h w hw).stripped).trans (List.map_id _)
    rw [orBlank, keptValues, hmap, List.filter_eq_self]
    exact fun w hw => by simpa using (h w hw).filled

/-- The values of all kinds are the rows. -/
theorem length_kinds (rows : List CustomerContact) :
    (contactKinds.map fun kind => (rows.filter fun r => r.kind = kind).length).sum = rows.length := by
  induction rows with
  | nil => rfl
  | cons r rows ih =>
    rw [List.length_cons, ← ih]
    cases hkind : r.kind <;> simp [contactKinds, hkind] <;> omega

/-- The payload of the edit page as it is kept. -/
theorem keptContacts_editContacts {b : Book} (h : ∀ r ∈ b.contacts, StoredValue r.value)
    (customerId : String) : ∃ kept, keptContacts (editContacts b customerId) = .ok kept ∧
      kept.length = (contactsOf b customerId).length := by
  refine ⟨(contactKinds.map fun kind =>
    (shownContacts b customerId kind).map (Prod.mk kind)).flatten, ?_, ?_⟩
  · refine bind_ok_iff.mpr ⟨_, mapM_ok_iff.mpr ?_, rfl⟩
    rw [editContacts_eq, everyKind, List.forall₂_map_left_iff, List.forall₂_map_right_iff,
      List.forall₂_same]
    intro kind _
    unfold keptEntry
    rw [ContactKind.ofText_text, keptValues_orBlank (storedValue_shown h)]
  · rw [List.length_flatten, List.map_map, ← length_kinds]
    refine congrArg List.sum (List.map_congr_left fun kind _ => ?_)
    rw [Function.comp_apply, List.length_map, shownContacts_eq, List.length_map]

theorem stampContacts_ok {newId : IdSource} {customerId : String} {base : Reading}
    {kept : List (ContactKind × String)} {used : List String} {offset : Nat}
    (h : ∀ k < kept.length, (base.plus (offset + k)).isSome) :
    ∃ rows, stampContacts newId customerId base used offset kept = .ok rows := by
  induction kept generalizing used offset with
  | nil => exact ⟨[], rfl⟩
  | cons p kept ih =>
    obtain ⟨kind, value⟩ := p
    obtain ⟨moment, hmoment⟩ := Option.isSome_iff_exists.mp (h 0 (Nat.succ_pos _))
    obtain ⟨rows, hrows⟩ := @ih (newId used :: used) (offset + 1) fun k hk => by
      rw [Nat.add_assoc, Nat.add_comm 1]
      exact h (k + 1) (Nat.succ_lt_succ hk)
    simp only [stampContacts]
    rw [Nat.add_zero] at hmoment
    rw [hmoment]
    dsimp only
    rw [hrows]
    exact ⟨_, rfl⟩

/-- The fields of the edit page say what the form that wrote them said. -/
theorem editForm_savedAs {env env' : Env} {form : CustomerForm} {c : Customer}
    (hlower : env'.lower = env.lower) (hform : customerErrors form = []) (h : SavedAs env form c) :
    customerErrors (editForm c) = [] ∧ SavedAs env' (editForm c) c := by
  have hback : ∀ s : String, strip ((orNone (strip s)).getD "") = strip s := by
    intro s
    unfold orNone
    split_ifs with hs
    · rw [hs]
      rfl
    · exact strip_strip s
  have hname : strip (editForm c).name = strip form.name := by
    rw [editForm, h.name, strip_strip]
  have hsurname : strip (editForm c).surname = strip form.surname := by
    rw [editForm, h.surname, hback]
  have hnumber : strip (editForm c).consultantNumber = strip form.consultantNumber := by
    rw [editForm, h.consultantNumber, hback]
  have haddress : strip (editForm c).address = strip form.address := by
    rw [editForm, h.address, hback]
  refine ⟨?_, ?_, ?_, ?_, ?_, ?_⟩
  · simp only [customerErrors, hname, hsurname, hnumber, haddress] at hform ⊢
    exact hform
  · rw [hname, h.name]
  · rw [hsurname, h.surname]
  · rw [hnumber, h.consultantNumber]
  · rw [haddress, h.address]
  · rw [h.searchLc]
    unfold CustomerForm.searchLc
    rw [hname, hsurname, hnumber, hlower]

/-- The edit page of a customer, posted back as it is. -/
def resave (env : Env) (now : Reading) (b : Book) (c : Customer) : Save where
  env := env
  target := some c.id
  form := editForm c
  contacts := some (editContacts b c.id)
  now := now

theorem errors_resave {lower : String → String} {b : Book} (h : Tidy lower b) {c : Customer}
    (hc : c ∈ b.db.customers) (env : Env) (now : Reading) :
    (resave env now b c).errors b.db = .ok [] := by
  obtain ⟨env', form, -, hform, hsaved⟩ := h.customers c hc
  have hedit := (editForm_savedAs (rfl : env'.lower = env'.lower) hform hsaved).1
  have hfound : (b.db.find .customer c.id).isSome :=
    List.find?_isSome.mpr ⟨c, hc, decide_eq_true rfl⟩
  have hname : strip (editForm c).name ≠ "" := by
    intro hblank
    simp [customerErrors, hblank] at hedit
  unfold Save.errors resave
  dsimp only
  rw [Option.any_some, if_neg (by rw [← Option.not_isSome, hfound]; exact Bool.false_ne_true),
    if_neg hname]
  refine validateContacts_eq_nil.mpr ⟨hedit, fun e he => ?_⟩
  rw [editContacts_eq] at he
  obtain ⟨kind, -, rfl⟩ := List.mem_map.mp he
  refine ⟨by rw [ContactKind.ofText_text]; rfl, fun v hv => ?_⟩
  rw [keptValues_orBlank (storedValue_shown h.values)] at hv
  exact (storedValue_shown h.values v hv).fits

/-- An edit that leaves the row with its id leaves everything. -/
theorem edit_of_eq {d : Db} (hd : d.Ok) {k : Kind} {r : Row k} (hr : r ∈ d.get k)
    {f : Row k → Row k} (hf : f r = r) : d.edit k (rowId k r) f = d := by
  have hrows : ((d.get k).map fun r' => if rowId k r' = rowId k r then f r' else r') = d.get k := by
    refine (List.map_congr_left fun r' hr' => ?_).trans (List.map_id _)
    split_ifs with hid
    · rw [List.inj_on_of_nodup_map (hd.nodup k) hr' hr hid, hf]
      rfl
    · rfl
  rw [Db.edit, hrows, Db.set_get]

/-- A save that goes through. -/
theorem Save.perform_done {s : Save} {b : Book} {customerId : String} {rows : List CustomerContact}
    (herrors : s.errors b.db = .ok []) (hreply : s.write.reply b.db = .ok (.done customerId))
    (hfile : s.file customerId b.contacts = .ok rows) :
    s.perform b = (.ok (.done customerId), ⟨s.write.exec b.db, rows⟩) := by
  unfold perform
  rw [herrors]
  dsimp only
  rw [if_neg (not_not.mpr rfl), hreply]
  dsimp only
  rw [hfile]

/-- The edit page replaces the contacts by what the page shows. -/
theorem shown_resaved {b : Book} (h : ∀ r ∈ b.contacts, StoredValue r.value) {newId : IdSource}
    {now : Reading} {customerId : String} {rows : List CustomerContact} {d : Db}
    (hrows : replaceContacts newId now customerId (editContacts b customerId) b.contacts = .ok rows) :
    shownContacts ⟨d, rows⟩ = shownContacts b := by
  rw [@shown_replaced _ _ _ _ _ _ b.db d hrows]
  refine Function.update_eq_self_iff.mpr ?_
  funext kind
  rw [editContacts_eq, get?_everyKind, Option.getD_some, keptValues_orBlank (storedValue_shown h)]

/-- After any saves of a database without customers, the edit page of any customer can be posted
back as it is, as long as the calendar lasts: the save is accepted, no row of the database changes,
and the pages of all customers show what they showed. -/
theorem resaved_edit_page {lower : String → String} {d : Db} (hd : d.Ok) (hnone : d.customers = [])
    {saves : List Save} (hsaves : ∀ s ∈ saves, s.env.lower = lower) {c : Customer}
    (hc : c ∈ (runSaves ⟨d, []⟩ saves).db.customers) {env : Env} (henv : env.lower = lower)
    {now : Reading} (hclock : ∀ k < (contactsOf (runSaves ⟨d, []⟩ saves) c.id).length,
      (now.plus k).isSome) :
    ∃ rows, (resave env now (runSaves ⟨d, []⟩ saves) c).perform (runSaves ⟨d, []⟩ saves) =
        (.ok (.done c.id), ⟨(runSaves ⟨d, []⟩ saves).db, rows⟩) ∧
      shownContacts ⟨(runSaves ⟨d, []⟩ saves).db, rows⟩ =
        shownContacts (runSaves ⟨d, []⟩ saves) := by
  have htidy : Tidy lower (runSaves ⟨d, []⟩ saves) :=
    tidy_runSaves hsaves ⟨hd, fun c hc => by simp [hnone] at hc, fun _ hr => nomatch hr⟩
  generalize runSaves ⟨d, []⟩ saves = b at hc hclock htidy ⊢
  obtain ⟨env', form, hlower, hform, hsaved⟩ := htidy.customers c hc
  obtain ⟨hedit, hback⟩ := editForm_savedAs (henv.trans hlower.symm) hform hsaved
  have hfound : (b.db.find .customer c.id).isSome :=
    List.find?_isSome.mpr ⟨c, hc, decide_eq_true rfl⟩
  obtain ⟨hreply, hexec⟩ := @updateCustomer_accepted b.db env (editForm c) htidy.ok hedit c.id hfound
  obtain ⟨kept, hkept, hlength⟩ := keptContacts_editContacts htidy.values c.id
  obtain ⟨new, hnew⟩ := @stampContacts_ok env.newId c.id now kept
    (b.contacts.map CustomerContact.id) 0 (by simpa [hlength] using hclock)
  have hreplace : replaceContacts env.newId now c.id (editContacts b c.id) b.contacts =
      .ok ((b.contacts.filter fun r => r.customerId ≠ c.id) ++ new) :=
    bind_ok_iff.mpr ⟨kept, hkept, bind_ok_iff.mpr ⟨new, hnew, rfl⟩⟩
  have hdb : (updateCustomer env c.id (editForm c)).exec b.db = b.db :=
    hexec.trans (edit_of_eq htidy.ok (k := .customer) hc (onto_of_savedAs hback _))
  refine ⟨_, ?_, shown_resaved htidy.values hreplace⟩
  have hdone := Save.perform_done (errors_resave htidy hc env now) hreply hreplace
  rw [hdone]
  exact congrArg (fun d => (_, Book.mk d _)) hdb

theorem newYearDay_valid :
    1 ≤ 2026 ∧ 2026 ≤ 9999 ∧ 1 ≤ 1 ∧ 1 ≤ 12 ∧ 1 ≤ 1 ∧ 1 ≤ daysInMonth 2026 1 := by decide

theorem zero_lt_dayMicros : 0 < dayMicros := by decide

/-- A new customer with two telephone numbers, one of them with blanks around it, and a blank row. -/
def annaSave : Save where
  env := .sample
  target := none
  form := { name := " Anna", surname := "", consultantNumber := "7" }
  contacts := some (everyKind fun kind => if kind = .phone then ["11", " ", " 22 "] else [])
  now := ⟨⟨2026, 1, 1, newYearDay_valid⟩, 0, zero_lt_dayMicros⟩

theorem resaved_edit_page_anna : ∃ c rows,
    (resave .sample annaSave.now (runSaves ⟨{}, []⟩ [annaSave]) c).perform
        (runSaves ⟨{}, []⟩ [annaSave]) =
      (.ok (.done c.id), ⟨(runSaves ⟨{}, []⟩ [annaSave]).db, rows⟩) ∧
    shownContacts ⟨(runSaves ⟨{}, []⟩ [annaSave]).db, rows⟩ =
      shownContacts (runSaves ⟨{}, []⟩ [annaSave]) := by
  have hrun : runSaves ⟨{}, []⟩ [annaSave] = (annaSave.perform ⟨{}, []⟩).2 := rfl
  have hclock : ∀ k < dayMicros, (annaSave.now.plus k).isSome := by
    intro k hk
    have hday : (annaSave.now.micros + k) / dayMicros = 0 :=
      Nat.div_eq_of_lt (by rw [annaSave, Nat.zero_add]; exact hk)
    rw [Reading.plus, hday]
    rfl
  have hlength : (runSaves ⟨{}, []⟩ [annaSave]).contacts.length ≤ 2 := by decide
  have hcustomer : newCustomer .sample annaSave.form {} ∈
      (runSaves ⟨{}, []⟩ [annaSave]).db.customers := by
    exact List.mem_singleton.mpr rfl
  refine ⟨newCustomer .sample annaSave.form {},
    @resaved_edit_page id {} ?_ rfl [annaSave] ?_ _ hcustomer .sample rfl annaSave.now ?_⟩
  · decide
  · simp [annaSave, Env.sample]
  · intro k hk
    refine hclock k (lt_of_lt_of_le hk ?_)
    rw [contactsOf, List.length_insertionSort]
    refine (List.length_filter_le _ _).trans (hlength.trans (by decide))

end MyOriShop
