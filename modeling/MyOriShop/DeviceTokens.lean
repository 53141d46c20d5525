import Mathlib.Data.List.Forall2
import Mathlib.Data.List.Nodup
import MyOriShop.Ledger

/-!
# Device tokens (`app/services/devices.py`, `require_device` of `app/services/security.py`)

A token is shown once, when it is minted. The table has its first twelve characters, under a unique
index, and its digest; a request is looked up by the first and compared by the second.

* `mintToken`, `lookupActiveToken`, `touchLastUsed`, `revokeToken`, `requireDevice` are the functions
  of these names. `secrets.token_urlsafe` and the clock are arguments, SHA-256 is a parameter.
* `Desk` is the table, with what no table has: the tokens that were handed out, and whose were revoked.

Results:
* `Desk.Kept.exec`: a request keeps the rows in step with what was handed out.
* `tokens_resolve`: after every run a token resolves to its own row, until it is revoked.
-/

namespace MyOriShop

open Lib.Text

/-- A row of `device_tokens`. -/
structure DeviceToken where
  id : String
  deviceId : String
  label : String
  tokenPrefix : String
  tokenHash : String
  userId : Option String
  isActive : Int
  revokedAt : Option String
  lastUsedAt : Option String
  deriving DecidableEq

/-- `TOKEN_PLAINTEXT_PREFIX`. -/
def tokenPlaintextPrefix : String := "myos_"

/-- `TOKEN_PREFIX_LEN`. -/
def tokenPrefixLen : Nat := 12

/-- `_LABEL_MAX`. -/
def labelMax : Nat := 100

/-- `LABEL_REQUIRED_ERROR`. -/
def labelRequiredError : String := "Укажите название устройства."

/-- `DEVICE_ID_REQUIRED_ERROR`. -/
def deviceIdRequiredError : String := "Укажите идентификатор устройства."

/-- `TOKEN_NOT_FOUND_ERROR`. -/
def tokenNotFoundError : String := "Токен устройства не найден."

/-- `text[:n]`. -/
def takeChars (n : Nat) (text : String) : String := String.ofList (text.toList.take n)

/-- `secrets.token_urlsafe(32)`: 43 characters. -/
abbrev TokenEntropy := { text : String // text.toList.length = 43 }

/-- What `mint_token` ends with instead of a row. -/
inductive MintFailure where
  | errors (errors : Errors)
  /-- `IntegrityError`: the unique index on the prefix. -/
  | integrity

/-- `mint_token`, with the id and the secret it draws: the row, and the plaintext to show. -/
def mintToken (sha256 : String → String) (tokens : List DeviceToken) (deviceId label : String)
    (userId : Option String) (newId : IdSource) (entropy : TokenEntropy) :
    Except MintFailure (DeviceToken × String) :=
  let labelled := Errors.putIf [] (strip label = "") "label" labelRequiredError
  let errors := labelled.putIf (strip deviceId = "") "device_id" deviceIdRequiredError
  if errors ≠ [] then .error (.errors errors)
  else
    let plaintext := tokenPlaintextPrefix ++ entropy
    let row :=
      { id := newId (tokens.map DeviceToken.id)
        deviceId := strip deviceId
        label := takeChars labelMax (strip label)
        tokenPrefix := takeChars tokenPrefixLen plaintext
        tokenHash := sha256 plaintext
        userId := userId
        isActive := 1
        revokedAt := none
        lastUsedAt := none }
    if tokens.any fun t => t.tokenPrefix = row.tokenPrefix then .error .integrity
    else .ok (row, plaintext)

/-- `lookup_active_token`. -/
def lookupActiveToken (sha256 : String → String) (tokens : List DeviceToken) (presented : String) :
    Option DeviceToken :=
  if presented.toList.length < tokenPrefixLen then none
  else
    (tokens.find? fun t => t.tokenPrefix = takeChars tokenPrefixLen presented && t.isActive = 1).filter
      fun row => sha256 presented = row.tokenHash

/-- Change the row with an id. -/
def flushToken (tokens : List DeviceToken) (id : String) (change : DeviceToken → DeviceToken) :
    List DeviceToken :=
  tokens.map fun t => if t.id = id then change t else t

/-- `touch_last_used`. -/
def touchLastUsed (tokens : List DeviceToken) (token : DeviceToken) (now : String) : List DeviceToken :=
  flushToken tokens token.id fun t => { t with lastUsedAt := some now }

/-- `revoke_token`. -/
def revokeToken (tokens : List DeviceToken) (id now : String) : Except Errors (List DeviceToken) :=
  match tokens.find? fun t => t.id = id with
  | none => .error [("token", tokenNotFoundError)]
  | some _ => .ok (flushToken tokens id fun t => { t with isActive := 0, revokedAt := some now })

/-- `require_device`: the row a request is let through with, and the rows after it; `none` is a 401. -/
def requireDevice (sha256 : String → String) (tokens : List DeviceToken) (credentials : Option String)
    (now : String) : Option DeviceToken × List DeviceToken :=
  match credentials.bind (lookupActiveToken sha256 tokens) with
  | none => (none, tokens)
  | some token => (some token, touchLastUsed tokens token now)

/-! ## The desk -/

/-- A token as it was handed out. -/
structure Issue where
  id : String
  deviceId : String
  label : String
  userId : Option String
  plaintext : String

/-- The table; the tokens handed out so far, and the ids of those that were revoked. -/
structure Desk where
  tokens : List DeviceToken := []
  issued : List Issue := []
  revoked : List String := []

/-- A request. -/
inductive TokenCall where
  | mint (deviceId label : String) (userId : Option String) (newId : IdSource) (entropy : TokenEntropy)
  | revoke (id now : String)
  | present (credentials : Option String) (now : String)

/-- What a row is handed out with. -/
def DeviceToken.issue (row : DeviceToken) (plaintext : String) : Issue :=
  ⟨row.id, row.deviceId, row.label, row.userId, plaintext⟩

/-- One request; what it writes is committed, or it writes nothing. -/
def Desk.exec (sha256 : String → String) (desk : Desk) : TokenCall → Desk
  | .mint deviceId label userId newId entropy =>
    match mintToken sha256 desk.tokens deviceId label userId newId entropy with
    | .error _ => desk
    | .ok (row, plaintext) =>
      { desk with
        tokens := desk.tokens ++ [row]
        issued := desk.issued ++ [row.issue plaintext] }
  | .revoke id now =>
    match revokeToken desk.tokens id now with
    | .error _ => desk
    | .ok tokens => { desk with tokens := tokens, revoked := id :: desk.revoked }
  | .present credentials now =>
    { desk with tokens := (requireDevice sha256 desk.tokens credentials now).2 }

/-- Requests one after another, from an empty table. -/
def Desk.after (sha256 : String → String) (calls : List TokenCall) : Desk :=
  calls.foldl (Desk.exec sha256) {}

variable {sha256 : String → String} {desk : Desk}

/-- A row is that of a token that was handed out. -/
structure Stems (sha256 : String → String) (revoked : List String) (row : DeviceToken) (issue : Issue) :
    Prop where
  same : row.issue issue.plaintext = issue
  lookup : row.tokenPrefix = takeChars tokenPrefixLen issue.plaintext
  digest : row.tokenHash = sha256 issue.plaintext
  long : tokenPrefixLen ≤ issue.plaintext.toList.length
  active : row.isActive = 1 ↔ row.id ∉ revoked

/-- The rows are those of the tokens that were handed out, under different ids and prefixes. -/
structure Desk.Kept (sha256 : String → String) (desk : Desk) : Prop where
  ids : (desk.tokens.map DeviceToken.id).Nodup
  prefixes : (desk.tokens.map DeviceToken.tokenPrefix).Nodup
  revoked : ∀ i ∈ desk.revoked, i ∈ desk.tokens.map DeviceToken.id
  rows : List.Forall₂ (Stems sha256 desk.revoked) desk.tokens desk.issued

theorem flushToken_map {α : Type} {f : DeviceToken → α} {id : String}
    {change : DeviceToken → DeviceToken} (h : ∀ t, f (change t) = f t) (tokens : List DeviceToken) :
    (flushToken tokens id change).map f = tokens.map f := by
  rw [flushToken, List.map_map]
  refine List.map_congr_left fun t _ => ?_
  rw [Function.comp_apply]
  split_ifs
  · exact h t
  · rfl

/-- A change of one row, and of what stands for it. -/
theorem Desk.Kept.flush (h : desk.Kept sha256) {id : String} {change : DeviceToken → DeviceToken}
    {revoked : List String} (hid : ∀ t, (change t).id = t.id)
    (hstart : ∀ t, (change t).tokenPrefix = t.tokenPrefix)
    (hrevoked : ∀ i ∈ revoked, i ∈ desk.tokens.map DeviceToken.id)
    (hsame : ∀ row issue, row.id = id → Stems sha256 desk.revoked row issue →
      Stems sha256 revoked (change row) issue)
    (hother : ∀ row issue, row.id ≠ id → Stems sha256 desk.revoked row issue →
      Stems sha256 revoked row issue) :
    Desk.Kept sha256 ⟨flushToken desk.tokens id change, desk.issued, revoked⟩ where
  ids := by
    rw [flushToken_map hid]
    exact h.ids
  prefixes := by
    rw [flushToken_map hstart]
    exact h.prefixes
  revoked := by
    rw [flushToken_map hid]
    exact hrevoked
  rows := by
    refine List.forall₂_map_left_iff.mpr (h.rows.imp fun row issue hrow => ?_)
    split_ifs with heq
    · exact hsame row issue heq hrow
    · exact hother row issue heq hrow

/-- A new row, handed out. -/
theorem Desk.Kept.append (h : desk.Kept sha256) {row : DeviceToken} {plaintext : String}
    (hid : row.id ∉ desk.tokens.map DeviceToken.id)
    (hstart : row.tokenPrefix ∉ desk.tokens.map DeviceToken.tokenPrefix)
    (hrow : Stems sha256 desk.revoked row (row.issue plaintext)) :
    Desk.Kept sha256 ⟨desk.tokens ++ [row], desk.issued ++ [row.issue plaintext], desk.revoked⟩ where
  ids := by
    rw [List.map_append, List.map_singleton]
    exact List.nodup_append'.mpr ⟨h.ids, List.nodup_singleton _, List.disjoint_singleton.mpr hid⟩
  prefixes := by
    rw [List.map_append, List.map_singleton]
    exact List.nodup_append'.mpr
      ⟨h.prefixes, List.nodup_singleton _, List.disjoint_singleton.mpr hstart⟩
  revoked i hi := by
    rw [List.map_append]
    exact List.mem_append_left _ (h.revoked i hi)
  rows := List.rel_append h.rows (.cons hrow .nil)

/-- **A request** keeps the rows in step with what was handed out. -/
theorem Desk.Kept.exec (h : desk.Kept sha256) (call : TokenCall) : (desk.exec sha256 call).Kept sha256 := by
  cases call with
  | mint deviceId label userId newId entropy =>
    simp only [Desk.exec]
    cases hmint : mintToken sha256 desk.tokens deviceId label userId newId entropy with
    | error e => exact h
    | ok out =>
      unfold mintToken at hmint
      dsimp only at hmint
      split_ifs at hmint with herrors htaken
      cases hmint
      have hnew := (newId (desk.tokens.map DeviceToken.id)).2
      refine h.append hnew.2 (fun hmem => htaken ?_) ⟨rfl, rfl, rfl, ?_, ?_⟩
      · obtain ⟨t, ht, heq⟩ := List.mem_map.mp hmem
        exact List.any_eq_true.mpr ⟨t, ht, decide_eq_true heq⟩
      · have hlength := entropy.2
        simp only [DeviceToken.issue, tokenPlaintextPrefix, tokenPrefixLen, String.toList_append,
          List.length_append, hlength]
        omega
      · exact iff_of_true rfl fun hmem => hnew.2 (h.revoked _ hmem)
  | revoke id now =>
    simp only [Desk.exec, revokeToken]
    cases hfind : desk.tokens.find? fun t => t.id = id with
    | none => exact h
    | some found =>
      have hfound : id ∈ desk.tokens.map DeviceToken.id := by
        have hid : found.id = id := by simpa using List.find?_some hfind
        exact hid ▸ List.mem_map_of_mem (List.mem_of_find?_eq_some hfind)
      refine h.flush (fun _ => rfl) (fun _ => rfl) (List.forall_mem_cons.mpr ⟨hfound, h.revoked⟩)
        (fun row issue hid hrow => ?_) fun row issue hid hrow => ?_
      · exact ⟨hrow.same, hrow.lookup, hrow.digest, hrow.long, by simp [hid]⟩
      · exact ⟨hrow.same, hrow.lookup, hrow.digest, hrow.long, by simp [hrow.active, hid]⟩
  | present credentials now =>
    simp only [Desk.exec, requireDevice]
    cases credentials.bind (lookupActiveToken sha256 desk.tokens) with
    | none => exact h
    | some token =>
      exact h.flush (fun _ => rfl) (fun _ => rfl) h.revoked
        (fun row issue _ hrow => ⟨hrow.same, hrow.lookup, hrow.digest, hrow.long, hrow.active⟩)
        fun _ _ _ hrow => hrow

theorem desk_kept (sha256 : String → String) (calls : List TokenCall) :
    (Desk.after sha256 calls).Kept sha256 := by
  have hall : ∀ desk : Desk, desk.Kept sha256 → (calls.foldl (Desk.exec sha256) desk).Kept sha256 := by
    induction calls with
    | nil => exact fun _ h => h
    | cons call calls ih => exact fun desk h => ih _ (h.exec call)
  exact hall {} ⟨List.nodup_nil, List.nodup_nil, fun _ hi => absurd hi List.not_mem_nil, .nil⟩

/-! ## What is let through -/

theorem exists_right {α β : Type} {R : α → β → Prop} {as : List α} {bs : List β}
    (h : List.Forall₂ R as bs) {a : α} (ha : a ∈ as) : ∃ b ∈ bs, R a b := by
  induction h with
  | nil => exact absurd ha List.not_mem_nil
  | cons hab _ ih =>
    rcases List.mem_cons.mp ha with rfl | ha
    · exact ⟨_, List.mem_cons_self, hab⟩
    · obtain ⟨b, hb, hR⟩ := ih ha
      exact ⟨b, List.mem_cons_of_mem _ hb, hR⟩

theorem exists_left {α β : Type} {R : α → β → Prop} {as : List α} {bs : List β}
    (h : List.Forall₂ R as bs) {b : β} (hb : b ∈ bs) : ∃ a ∈ as, R a b :=
  exists_right h.flip hb

/-- A presented text is let through as the token whose first characters and digest it has. -/
theorem Desk.Kept.lookup_iff (h : desk.Kept sha256) (presented id : String) :
    (∃ row, lookupActiveToken sha256 desk.tokens presented = some row ∧ row.id = id) ↔
      ∃ issue ∈ desk.issued, issue.id = id ∧ id ∉ desk.revoked ∧
        takeChars tokenPrefixLen presented = takeChars tokenPrefixLen issue.plaintext ∧
          sha256 presented = sha256 issue.plaintext := by
  constructor
  · rintro ⟨row, hrow, rfl⟩
    unfold lookupActiveToken at hrow
    split_ifs at hrow
    obtain ⟨hfind, hdigest⟩ := Option.filter_eq_some_iff.mp hrow
    have hfound := List.find?_some hfind
    rw [Bool.and_eq_true, decide_eq_true_eq, decide_eq_true_eq] at hfound
    obtain ⟨issue, hissue, hstems⟩ := exists_right h.rows (List.mem_of_find?_eq_some hfind)
    refine ⟨issue, hissue, (congrArg Issue.id hstems.same).symm, hstems.active.mp hfound.2,
      hfound.1.symm.trans hstems.lookup, ?_⟩
    exact (of_decide_eq_true hdigest).trans hstems.digest
  · rintro ⟨issue, hissue, rfl, hrevoked, hstart, hdigest⟩
    obtain ⟨row, hrow, hstems⟩ := exists_left h.rows hissue
    have hid : row.id = issue.id := congrArg Issue.id hstems.same
    have hactive : row.isActive = 1 := hstems.active.mpr (hid ▸ hrevoked)
    have hlong : ¬presented.toList.length < tokenPrefixLen := by
      have hlength := congrArg (fun s => s.toList.length) hstart
      have hissued := hstems.long
      simp only [takeChars, String.toList_ofList, List.length_take] at hlength
      omega
    -- no other row has the prefix
    have hfind : (desk.tokens.find? fun t =>
        t.tokenPrefix = takeChars tokenPrefixLen presented && t.isActive = 1) = some row := by
      cases hfound : desk.tokens.find? fun t =>
          t.tokenPrefix = takeChars tokenPrefixLen presented && t.isActive = 1 with
      | none =>
        have hno := List.find?_eq_none.mp hfound row hrow
        simp [hstart, hstems.lookup, hactive] at hno
      | some row' =>
        have hrow' := List.find?_some hfound
        rw [Bool.and_eq_true, decide_eq_true_eq] at hrow'
        rw [List.inj_on_of_nodup_map h.prefixes (List.mem_of_find?_eq_some hfound) hrow
          (hrow'.1.trans (hstart.trans hstems.lookup.symm))]
    refine ⟨row, ?_, hid⟩
    rw [lookupActiveToken, if_neg hlong, hfind]
    exact Option.filter_some_pos (decide_eq_true (hdigest.trans hstems.digest.symm))

/-- **Device tokens**: after every run a text is let through exactly as the token that was handed out
with its first characters and its digest, and not revoked since. So every token opens its own row until
it is revoked; and no row of a token is lost, or changes whose it is. -/
theorem tokens_resolve (sha256 : String → String) (calls : List TokenCall) :
    (∀ credentials now id,
      (∃ row, (requireDevice sha256 (Desk.after sha256 calls).tokens credentials now).1 = some row ∧
          row.id = id) ↔
        ∃ presented ∈ credentials, ∃ issue ∈ (Desk.after sha256 calls).issued, issue.id = id ∧
          id ∉ (Desk.after sha256 calls).revoked ∧
          takeChars tokenPrefixLen presented = takeChars tokenPrefixLen issue.plaintext ∧
            sha256 presented = sha256 issue.plaintext) ∧
    (∀ issue ∈ (Desk.after sha256 calls).issued, ∀ now,
      (∃ row, (requireDevice sha256 (Desk.after sha256 calls).tokens (some issue.plaintext) now).1 =
          some row ∧ row.issue issue.plaintext = issue) ↔
        issue.id ∉ (Desk.after sha256 calls).revoked) ∧
    ∀ issue ∈ (Desk.after sha256 calls).issued,
      ∃ row ∈ (Desk.after sha256 calls).tokens, row.issue issue.plaintext = issue := by
  have hkept := desk_kept sha256 calls
  generalize Desk.after sha256 calls = desk at hkept ⊢
  have hgate : ∀ credentials now, (requireDevice sha256 desk.tokens credentials now).1 =
      credentials.bind (lookupActiveToken sha256 desk.tokens) := by
    intro credentials now
    unfold requireDevice
    cases credentials.bind (lookupActiveToken sha256 desk.tokens) <;> rfl
  refine ⟨fun credentials now id => ?_, fun issue hissue now => ?_, fun issue hissue => ?_⟩
  · rw [hgate]
    cases credentials with
    | none => simp
    | some presented => simpa using hkept.lookup_iff presented id
  · rw [hgate, Option.bind_some]
    constructor
    · rintro ⟨row, hrow, hsame⟩
      have hid : row.id = issue.id := congrArg Issue.id hsame
      obtain ⟨_, -, -, hrevoked, -⟩ := (hkept.lookup_iff issue.plaintext issue.id).mp ⟨row, hrow, hid⟩
      exact hrevoked
    · intro hrevoked
      obtain ⟨row, hrow, hid⟩ := (hkept.lookup_iff issue.plaintext issue.id).mpr
        ⟨issue, hissue, rfl, hrevoked, rfl, rfl⟩
      obtain ⟨row', hrow', hstems⟩ := exists_left hkept.rows hissue
      have hmem : row ∈ desk.tokens := by
        unfold lookupActiveToken at hrow
        split_ifs at hrow
        exact List.mem_of_find?_eq_some (Option.filter_eq_some_iff.mp hrow).1
      have hsame : row = row' := List.inj_on_of_nodup_map hkept.ids hmem hrow'
        (hid.trans (congrArg Issue.id hstems.same).symm)
      exact ⟨row, hrow, hsame ▸ hstems.same⟩
  · obtain ⟨row, hrow, hstems⟩ := exists_left hkept.rows hissue
    exact ⟨row, hrow, hstems.same⟩

end MyOriShop
