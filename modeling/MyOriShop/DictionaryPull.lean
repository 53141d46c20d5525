import MyOriShop.SyncClient

/-!
# Dictionary pull: entries told apart by their code (`app/services/sync_client.py`)

The dictionaries of the two sides are seeded independently, so the page is matched by code: an entry
with a new code is inserted under the server's id, the others are updated in place. The id of a new
code may be taken, when `update_entry` has changed the code of an entry that both sides know.

* `DictionaryPulled` is what a pull has to leave behind, `Enters` the condition on one entry.

Results:
* `upsertDictionary_enters`: the upsert succeeds exactly when no new code brings an id that is taken.
* `dictionaryPull_iff`: the pull does what it has to do exactly when every entry enters.
* `not_dictionaryPull`: an entry that was given another code stops the pull.
-/

namespace MyOriShop

open Lib.Fallible Lib.Overlay

variable {driver : Driver} {now : String} {d d' : Db} {rows : List Dictionary}

/-! ## The ids and codes of the result -/

/-- The ids after an upsert: the local ones stay. -/
theorem ids_overlay_entry (base rows : List Dictionary) :
    (overlay Dictionary.code adoptEntry base rows).map Dictionary.id = base.map Dictionary.id ++
      (newRows (k := .dictionary) Dictionary.code base rows).map Dictionary.id := by
  have hid : ∀ e, (joined Dictionary.code adoptEntry rows e).id = e.id := by
    intro e
    unfold joined
    cases rows.find? fun s => s.code = e.code <;> rfl
  rw [overlay, List.map_append, List.map_map]
  congr 1
  exact List.map_congr_left fun e _ => hid e

/-- An upserted dictionary has its keys as soon as the ids of the new entries are free. -/
theorem overlay_entry_ok (hd : d.Ok) (hcodes : (rows.map Dictionary.code).Nodup)
    (hids : (rows.map Dictionary.id).Nodup)
    (hfree : ∀ s ∈ rows, s.code ∉ d.dictionary.map Dictionary.code → s.id ∉ d.ids .dictionary) :
    (d.set .dictionary (overlay Dictionary.code adoptEntry d.dictionary rows)).Ok := by
  have hmap := ids_overlay_entry d.dictionary rows
  refine (Db.ok_set_iff hd ?_).mpr ⟨?_, ?_, fun s _ ref href => absurd href List.not_mem_nil⟩
  · intro i hi
    show i ∈ (overlay Dictionary.code adoptEntry d.dictionary rows).map Dictionary.id
    rw [hmap]
    exact List.mem_append_left _ hi
  · show ((overlay Dictionary.code adoptEntry d.dictionary rows).map Dictionary.id).Nodup
    rw [hmap, List.nodup_append]
    refine ⟨hd.nodup .dictionary, hids.sublist (List.filter_sublist.map _), ?_⟩
    rintro i hi i' hi' rfl
    obtain ⟨s, hs, rfl⟩ := List.mem_map.mp hi'
    obtain ⟨hs, hnew⟩ := List.mem_filter.mp hs
    exact hfree s hs (of_decide_eq_true hnew) hi
  · exact nodup_overlay keepsKey_adoptEntry hd.dictionaryCode hcodes

/-- **The upsert of the dictionary** succeeds exactly when no new code brings an id that is taken. -/
theorem upsertDictionary_enters (hd : d.Ok) (hcodes : (rows.map Dictionary.code).Nodup)
    (hids : (rows.map Dictionary.id).Nodup) :
    (∃ n, upsertDictionary driver now (rows.map (toData .dictionary)) d = .ok (d', n)) ↔
      (∀ s ∈ coded rows, s.code ∈ d.dictionary.map Dictionary.code ∨ s.id ∉ d.ids .dictionary) ∧
        d' = d.set .dictionary (overlay Dictionary.code adoptEntry d.dictionary (coded rows)) := by
  rw [upsertDictionary_ok_iff hd hcodes]
  refine and_congr_left fun _ => ⟨fun hall s hs => ?_, fun hfree m hm => ?_⟩
  · by_cases hcode : s.code ∈ d.dictionary.map Dictionary.code
    · exact .inl hcode
    · -- the insert alone is the first state
      have hpk := (hall [] List.nil_prefix).nodup .dictionary
      have hnew : s ∈ newRows (k := .dictionary) Dictionary.code d.dictionary (coded rows) :=
        List.mem_filter.mpr ⟨hs, decide_eq_true hcode⟩
      rw [List.append_nil, Db.ids, Db.get_set_same] at hpk
      replace hpk : ((overlay Dictionary.code adoptEntry d.dictionary _).map Dictionary.id).Nodup :=
        hpk
      rw [ids_overlay_entry, List.nodup_append] at hpk
      refine .inr fun hmem => hpk.2.2 _ hmem _ (List.mem_map_of_mem ?_) rfl
      exact List.mem_filter.mpr ⟨hnew, decide_eq_true hcode⟩
  · have hsub : (newRows (k := .dictionary) Dictionary.code d.dictionary (coded rows) ++ m) ⊆
        coded rows :=
      List.append_subset.mpr ⟨List.filter_subset_self _,
        fun s hs => List.mem_of_mem_filter (hm.subset hs)⟩
    have hsubperm : List.Subperm
        (newRows (k := .dictionary) Dictionary.code d.dictionary (coded rows) ++ m) rows :=
      (subperm_rows hm).trans List.filter_sublist.subperm
    refine overlay_entry_ok hd (Db.nodup_map_of_subperm hsubperm hcodes)
      (Db.nodup_map_of_subperm hsubperm hids) fun s hs hcode => ?_
    exact (hfree s (hsub hs)).resolve_left hcode

/-! ## A page with nothing else -/

/-- The page of a dictionary. -/
def dictionaryPage (rows : List Dictionary) : List ExchangeRecord := rows.map (rowRecord .dictionary)

theorem bucket_dictionaryPage (rows : List Dictionary) :
    bucket (dictionaryPage rows) .dictionary = rows.map (toData .dictionary) := by
  unfold bucket dictionaryPage
  rw [List.filter_eq_self.mpr (List.forall_mem_map.mpr fun _ _ => rfl), List.map_map]
  rfl

theorem bucket_dictionaryPage_ne {k : Kind} (hk : k ≠ .dictionary) (rows : List Dictionary) :
    bucket (dictionaryPage rows) k = [] := by
  unfold bucket dictionaryPage
  rw [List.filter_eq_nil_iff.mpr, List.map_nil]
  exact List.forall_mem_map.mpr fun _ _ h => hk (of_decide_eq_true h).symm

/-- A kind without records is left as it is. -/
theorem upsertKind_nil {records : List ExchangeRecord} {k : Kind} (h : bucket records k = []) :
    upsertKind driver now records k d = .ok (d, 0) := by
  unfold upsertKind
  rw [h]
  split_ifs <;> rfl

theorem upsertKinds_dictionaryPage (rows : List Dictionary) :
    upsertKinds driver now (dictionaryPage rows) referenceInsertOrder d =
      upsertDictionary driver now (rows.map (toData .dictionary)) d := by
  have hnil : ∀ k ≠ Kind.dictionary, ∀ d : Db,
      upsertKind driver now (dictionaryPage rows) k d = .ok (d, 0) :=
    fun k hk d => upsertKind_nil (bucket_dictionaryPage_ne hk rows)
  have hdictionary : ∀ d, upsertKind driver now (dictionaryPage rows) .dictionary d =
      upsertDictionary driver now (rows.map (toData .dictionary)) d := by
    intro d
    rw [upsertKind, if_pos rfl, bucket_dictionaryPage]
  simp only [referenceInsertOrder, upsertKinds, hnil .warehouse (by decide),
    hnil .product (by decide), hnil .customer (by decide), hnil .batch (by decide),
    hnil .sale (by decide), hdictionary, ok_bind]
  cases upsertDictionary driver now (rows.map (toData .dictionary)) d with
  | error e => rfl
  | ok out =>
    show Except.ok (out.1, 0 + (0 + (0 + (out.2 + (0 + (0 + 0)))))) = Except.ok out
    simp only [Nat.zero_add, Nat.add_zero]

/-! ## The pull -/

/-- What the pull of a dictionary has to leave behind. -/
structure DictionaryPulled (d : Db) (rows : List Dictionary) (d' : Db) : Prop where
  ok : d'.Ok
  oneCode : (d'.dictionary.map Dictionary.code).Nodup
  keepsId : ∀ e ∈ d.dictionary, ∀ s ∈ rows, s.code = e.code →
    ∃ e' ∈ d'.dictionary, e'.code = e.code ∧ e'.id = e.id
  present : ∀ s ∈ rows, ∃ e' ∈ d'.dictionary, { e' with id := s.id } = s

/-- A server entry can come in: its code is there or its id is free. An entry with no code is
skipped, so it has to be there already. -/
def Enters (locals : List Dictionary) (s : Dictionary) : Prop :=
  if s.code = "" then ∃ e ∈ locals, { e with id := s.id } = s
  else s.code ∈ locals.map Dictionary.code ∨ s.id ∉ locals.map Dictionary.id

theorem enters_iff {locals : List Dictionary} {s : Dictionary} (h : s.code ≠ "") :
    Enters locals s ↔
      s.code ∈ locals.map Dictionary.code ∨ s.id ∉ locals.map Dictionary.id := by
  rw [Enters, if_neg h]

/-- An entry that is laid over the dictionary is there. -/
theorem mem_overlay_entry {base rows : List Dictionary} (h : (rows.map Dictionary.code).Nodup)
    {s : Dictionary} (hs : s ∈ rows) :
    ∃ e ∈ overlay Dictionary.code adoptEntry base rows, { e with id := s.id } = s := by
  by_cases hcode : s.code ∈ base.map Dictionary.code
  · obtain ⟨e, he, heq⟩ := List.mem_map.mp hcode
    exact ⟨adoptEntry s e, (mem_overlay h).mpr (.inl ⟨s, hs, .inr ⟨e, he, heq.symm, rfl⟩⟩), rfl⟩
  · exact ⟨s, (mem_overlay h).mpr (.inl ⟨s, hs, .inl ⟨hcode, rfl⟩⟩), rfl⟩

/-- A local entry is there under its id and code, whatever is laid over it. -/
theorem mem_overlay_local {base rows : List Dictionary} {e : Dictionary} (he : e ∈ base) :
    ∃ e' ∈ overlay Dictionary.code adoptEntry base rows, e'.code = e.code ∧ e'.id = e.id := by
  refine ⟨joined Dictionary.code adoptEntry rows e,
    List.mem_append_left _ (List.mem_map_of_mem he), key_joined keepsKey_adoptEntry rows e, ?_⟩
  unfold joined
  cases rows.find? fun s => s.code = e.code <;> rfl

/-- **The pull of a dictionary** does what it has to do exactly when every entry of the server
enters. Then only the stock check is left, which is not about the dictionary. -/
theorem dictionaryPull_iff (driver : Driver) (now : String) (db : Database)
    (rows : List Dictionary) (hids : (rows.map Dictionary.id).Nodup)
    (hcodes : (rows.map Dictionary.code).Nodup) :
    (∃ d' n, upsertKinds driver now (dictionaryPage rows) referenceInsertOrder db.db =
          .ok (d', n) ∧
        applyPullPage driver now db.db (dictionaryPage rows) =
          (recomputeDerived now d').map (fun d'' => (d'', n)) ∧
        DictionaryPulled db.db rows d') ↔
      ∀ s ∈ rows, Enters db.db.dictionary s := by
  have henters : ∀ d', (∃ n, upsertDictionary driver now (rows.map (toData .dictionary)) db.db =
      .ok (d', n)) ↔ _ := fun d' => upsertDictionary_enters db.ok hcodes hids
  have hcoded : ((coded rows).map Dictionary.code).Nodup :=
    hcodes.sublist (List.filter_sublist.map _)
  rw [upsertKinds_dictionaryPage]
  constructor
  · rintro ⟨d', n, hupsert, -, hpulled⟩ s hs
    obtain ⟨hfree, rfl⟩ := (henters d').mp ⟨n, hupsert⟩
    by_cases hempty : s.code = ""
    · rw [Enters, if_pos hempty]
      obtain ⟨e, he, heq⟩ := hpulled.present s hs
      have hcode : e.code = "" := (congrArg Dictionary.code heq).trans hempty
      refine ⟨e, ?_, heq⟩
      -- no row with a code made it
      rcases (mem_overlay hcoded).mp he with ⟨s', hs', ⟨-, rfl⟩ | ⟨r, -, -, rfl⟩⟩ | ⟨he, -⟩
      · exact absurd hcode (of_decide_eq_true (List.mem_filter.mp hs').2)
      · exact absurd hcode (of_decide_eq_true (List.mem_filter.mp hs').2)
      · exact he
    · exact (enters_iff hempty).mpr (hfree s (List.mem_filter.mpr ⟨hs, decide_eq_true hempty⟩))
  · intro hall
    have hfree : ∀ s ∈ coded rows,
        s.code ∈ db.db.dictionary.map Dictionary.code ∨ s.id ∉ db.db.ids .dictionary := by
      intro s hs
      obtain ⟨hs, hcode⟩ := List.mem_filter.mp hs
      exact (enters_iff (of_decide_eq_true hcode)).mp (hall s hs)
    obtain ⟨n, hupsert⟩ := (henters _).mpr ⟨hfree, rfl⟩
    refine ⟨_, n, hupsert, applyPullPage_of_upsertKinds ?_, ?_⟩
    · rw [upsertKinds_dictionaryPage, hupsert]
    · have hok := overlay_entry_ok db.ok hcoded (hids.sublist (List.filter_sublist.map _))
        fun s hs hcode => (hfree s hs).resolve_left hcode
      refine ⟨hok, hok.dictionaryCode, fun e he s _ _ => mem_overlay_local he, fun s hs => ?_⟩
      by_cases hcode : s.code = ""
      · have henter := hall s hs
        rw [Enters, if_pos hcode] at henter
        obtain ⟨e, he, heq⟩ := henter
        have hempty : e.code = "" := (congrArg Dictionary.code heq).trans hcode
        refine ⟨e, (mem_overlay hcoded).mpr (.inr ⟨he, fun hmem => ?_⟩), heq⟩
        obtain ⟨s', hs', hcode'⟩ := List.mem_map.mp hmem
        exact of_decide_eq_true (List.mem_filter.mp hs').2 (hcode'.trans hempty)
      · exact mem_overlay_entry hcoded (List.mem_filter.mpr ⟨hs, decide_eq_true hcode⟩)

/-- An entry under one code. -/
def entryOf (id code : String) : Dictionary where
  id := id
  code := code
  name := "n"
  catalogs := .null
  nameLc := none
  rubric := none
  createdAt := ""
  updatedAt := ""

/-- Two entries of the server: one is new, one has its code here under another id. -/
theorem dictionaryPull_iff_seeded : ∃ d' n,
    upsertKinds Driver.strict "" (dictionaryPage [entryOf "s1" "a", entryOf "s2" "b"])
        referenceInsertOrder { dictionary := [entryOf "l2" "b"] } = .ok (d', n) ∧
      applyPullPage Driver.strict "" { dictionary := [entryOf "l2" "b"] }
          (dictionaryPage [entryOf "s1" "a", entryOf "s2" "b"]) =
        (recomputeDerived "" d').map (fun d'' => (d'', n)) ∧
      DictionaryPulled { dictionary := [entryOf "l2" "b"] } [entryOf "s1" "a", entryOf "s2" "b"]
        d' := by
  refine (dictionaryPull_iff Driver.strict "" ⟨{ dictionary := [entryOf "l2" "b"] }, by decide⟩
    [entryOf "s1" "a", entryOf "s2" "b"] (by decide) (by decide)).mpr ?_
  have hcodes : ∀ s ∈ [entryOf "s1" "a", entryOf "s2" "b"], s.code ≠ "" := by decide
  have henter : ∀ s ∈ [entryOf "s1" "a", entryOf "s2" "b"],
      s.code ∈ ["b"] ∨ s.id ∉ ["l2"] := by decide
  exact fun s hs => (enters_iff (hcodes s hs)).mpr (henter s hs)

/-- An entry that both sides know has another code here: its code on the server is new, its id is
taken. -/
theorem not_dictionaryPull : ¬ ∀ (driver : Driver) (now : String) (db : Database)
    (rows : List Dictionary), (rows.map Dictionary.id).Nodup → (rows.map Dictionary.code).Nodup →
    ∃ d' n, upsertKinds driver now (dictionaryPage rows) referenceInsertOrder db.db = .ok (d', n) ∧
      applyPullPage driver now db.db (dictionaryPage rows) =
        (recomputeDerived now d').map (fun d'' => (d'', n)) ∧
      DictionaryPulled db.db rows d' := by
  intro h
  obtain ⟨d', n, hupsert, -⟩ := h Driver.strict "" ⟨{ dictionary := [entryOf "e" "b"] },
    by decide⟩ [entryOf "e" "a"] (by decide) (by decide)
  have hrefused : (upsertKinds Driver.strict "" (dictionaryPage [entryOf "e" "a"])
      referenceInsertOrder { dictionary := [entryOf "e" "b"] }).toOption.isNone = true := by
    decide
  rw [hupsert] at hrefused
  cases hrefused

end MyOriShop
