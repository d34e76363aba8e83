import Mathlib
import RecordStore.Proofs.Creation
import RecordStore.Proofs.Folding
import RecordStore.Proofs.Pages

/-!
# Available records

The records that are available to a list are those of its object that it does not have yet. They
are found by the same search as a listing of the object, and shown without pages. Main statement:
what is available and what is listed are together all that a search finds, and nothing is both.
-/

namespace RecordStore

/-! ### Searching -/

/-- The query for the records that a text is searched for in, newest first. -/
def Query.searching (search : Option String) : Query := { Query.default with search }

def CompiledQuery.searching (attributes : List Attribute) (search : Option String) :
    CompiledQuery := ⟨.all, compileSearch attributes search, [⟨.createdAt, .descending⟩]⟩

theorem compileQuery_searching (unknown : UnknownPolicy) (attributes : List Attribute)
    (search : Option String) :
    compileQuery unknown attributes (.searching search) = .ok (.searching attributes search) := by
  rfl

/-- A blank search finds everything. -/
theorem CompiledQuery.accepts_searching {search : Option String}
    (h : search.all Text.isBlank = true) (attributes : List Attribute) (row : Row) :
    (searching attributes search).accepts row = true := by
  have hnone : compileSearch attributes search = none := by
    cases search with
    | none => rfl
    | some text => simp [compileSearch, Text.fold_eq_empty_iff.mpr h]
  simp [searching, accepts, Matcher.accepts, hnone]

/-- One record is newer than another, or of the same time and first by its id. -/
def Record.Newer (r q : Record) : Prop :=
  q.createdAt.micros < r.createdAt.micros ∨
    r.createdAt.micros = q.createdAt.micros ∧ compare r.id q.id = .lt

theorem newer_of_precedes {s : Store} {attributes : List Attribute} {search : Option String}
    {r q : Record} (h : Precedes (CompiledQuery.searching attributes search).keys
      (s.recordRow attributes r) (s.recordRow attributes q)) : r.Newer q := by
  cases h with
  | present _ hmissing => cases hmissing
  | value _ _ hgt => exact .inl (Int.compare_eq_gt.mp hgt)
  | tied _ heq hid =>
    cases hid with
    | id hid => exact .inr ⟨Int.compare_eq_eq.mp (heq rfl), hid⟩

namespace Store

/-- What a list does not have yet of the records that a search finds. -/
structure Available (s : Store) (setup : Setup) (l : RecordList) (search : Option String)
    (views : List RecordView) : Prop where
  shown : ∀ view ∈ views, s.recordView? l.objectId view.record.id = some view
  newest : views.Pairwise fun v w => v.record.Newer w.record
  once : (views.map (·.record.id)).Nodup
  /-- A record is there just if a listing of the same search counts it and no entry has it. -/
  counted : ∃ ranked, (s.recordListing setup l.objectId).Serves setup (.searching search)
    (.searching (s.attributesOf (.object l.objectId)) search) ranked ∧
      ∀ r, r ∈ views.map (·.record) ↔ r ∈ ranked ∧ ∀ e ∈ s.entriesOf l.id, e.recordId ≠ r.id
  /-- Without a search the object's records are what is available and what is listed. -/
  whole : search.all Text.isBlank = true →
    (views.map (·.record.id) ++ (s.entriesOf l.id).map (·.recordId)).Nodup ∧
      (views.map (·.record.id) ++ (s.entriesOf l.id).map (·.recordId)).Perm
        ((s.recordsOf l.objectId).map (·.id))

variable {s : Store} {l : RecordList} {setup : Setup} {search : Option String}

theorem isListed_eq_false_iff {listId recordId : Id} :
    s.isListed listId recordId = false ↔ ∀ e ∈ s.entriesOf listId, e.recordId ≠ recordId := by
  simp [isListed]

/-- The records found by a search, newest first. -/
def found (s : Store) (objectId : Id) (search : Option String) : List Record :=
  (CompiledQuery.searching (s.attributesOf (.object objectId)) search).rank
    (s.recordRow (s.attributesOf (.object objectId))) (s.recordsOf objectId)

theorem mem_recordsOf_of_mem_found {objectId : Id} {r : Record}
    (hr : r ∈ s.found objectId search) : r ∈ s.recordsOf objectId :=
  (List.mem_filter.mp ((CompiledQuery.rank_perm _ _ _).subset hr)).1

theorem nodup_id_found (hi : s.Indexed) (objectId : Id) (search : Option String) :
    ((s.found objectId search).map (·.id)).Nodup := by
  refine ((CompiledQuery.rank_perm _ _ _).map _).nodup_iff.mpr ?_
  exact List.pairwise_map.mpr ((hi.records.filter _).filter _)

theorem found_perm {objectId : Id} (h : search.all Text.isBlank = true) :
    (s.found objectId search).Perm (s.recordsOf objectId) := by
  have hperm := CompiledQuery.rank_perm (.searching (s.attributesOf (.object objectId)) search)
    (s.recordRow (s.attributesOf (.object objectId))) (s.recordsOf objectId)
  rwa [List.filter_eq_self.mpr fun r _ => CompiledQuery.accepts_searching h _ _] at hperm

/-- Every entry has one of the object's records, and no two have the same. -/
theorem perm_listed (hs : s.Sound) (hl : l ∈ s.lists) (h : search.all Text.isBlank = true) :
    ((s.entriesOf l.id).map (·.recordId)).Perm
      (((s.found l.objectId search).filter fun r => s.isListed l.id r.id).map (·.id)) := by
  have hfound := (nodup_id_found hs.indexed l.objectId search).sublist
    ((List.filter_sublist (p := fun r => s.isListed l.id r.id)).map _)
  refine (List.perm_ext_iff_of_nodup (nodup_recordId_entriesOf hs.indexed l.id) hfound).mpr
    fun id => ?_
  simp only [List.mem_map, List.mem_filter, isListed, List.any_eq_true, beq_iff_eq]
  constructor
  · rintro ⟨e, he, rfl⟩
    obtain ⟨r, hr, hrid, hobject⟩ := exists_record_of_mem_entriesOf hs.indexed hs.linked hl he
    have hmem : r ∈ s.recordsOf l.objectId := List.mem_filter.mpr ⟨hr, beq_iff_eq.mpr hobject⟩
    exact ⟨r, ⟨(found_perm h).mem_iff.mpr hmem, e, he, hrid.symm⟩, hrid⟩
  · rintro ⟨r, ⟨-, e, he, hid⟩, rfl⟩
    exact ⟨e, he, hid⟩

/-- The records found for a list that it does not have. -/
def unlisted (s : Store) (l : RecordList) (search : Option String) : List Record :=
  (s.found l.objectId search).filter fun r => !s.isListed l.id r.id

theorem mem_unlisted_iff {r : Record} : r ∈ s.unlisted l search ↔
    r ∈ s.found l.objectId search ∧ ∀ e ∈ s.entriesOf l.id, e.recordId ≠ r.id := by
  rw [unlisted, List.mem_filter, Bool.not_eq_true', isListed_eq_false_iff]

theorem nodup_id_unlisted (hi : s.Indexed) (l : RecordList) (search : Option String) :
    ((s.unlisted l search).map (·.id)).Nodup :=
  (nodup_id_found hi l.objectId search).sublist (List.filter_sublist.map _)

/-- The views of these records are what is shown. -/
theorem availableRecords_eq_ok (hi : s.Indexed) (hl : l ∈ s.lists) (setup : Setup)
    (search : Option String) :
    s.availableRecords setup l.id l.objectId search =
      .ok ((s.unlisted l search).map s.recordView) := by
  have hrequire : s.requireList l.id = .ok l := requireList_eq_ok_iff.mpr (list?_eq_some hi hl)
  have hselect := selectRecords_eq_ok
    (compileQuery_searching setup.unknown (s.attributesOf (.object l.objectId)) search)
  rw [CompiledQuery.select_map fun r _ => s.agreeOn_recordRow _ _ r] at hselect
  refine bind_eq_ok_iff.mpr ⟨l, hrequire, bind_eq_ok_iff.mpr ⟨(), require_eq_ok_iff.mpr rfl,
    bind_eq_ok_iff.mpr ⟨_, hselect, congrArg Except.ok ?_⟩⟩⟩
  have hids (rows : List Record) (row : Record → Row) (hrow : ∀ r, (row r).id = r.id) :
      (((rows.map row).filter fun row => !s.isListed l.id row.id).map (·.id)) =
        (rows.filter fun r => !s.isListed l.id r.id).map (·.id) := by
    rw [List.filter_map, List.map_map]
    simp only [Function.comp_def, hrow]
  rw [hids _ _ fun _ => rfl]
  refine List.map_injective_iff.mpr (Option.some_injective _) ?_
  rw [List.map_map]
  refine map_some_drawInOrder_map (nodup_id_unlisted hi l search) fun r hr => ?_
  obtain ⟨hmem, hobject⟩ :=
    List.mem_filter.mp (mem_recordsOf_of_mem_found (mem_unlisted_iff.mp hr).1)
  have hlookup := lookup_recordViews hi hmem (List.mem_map_of_mem (f := Record.id) hr)
  rw [beq_iff_eq.mp hobject] at hlookup
  exact ⟨_, hlookup, rfl⟩

theorem available_unlisted (hs : s.Sound) (hoffered : s.Offered) (hl : l ∈ s.lists) (setup : Setup)
    (search : Option String) :
    s.Available setup l search ((s.unlisted l search).map s.recordView) := by
  have hi := hs.indexed
  obtain ⟨o, ho, hobject⟩ := hs.linked.lists l hl
  have hserves := serves_rank_recordListing hs hoffered ho
    (compileQuery_searching setup.unknown _ search)
  rw [hobject] at hserves
  have hrecords : ((s.unlisted l search).map s.recordView).map (·.record) = s.unlisted l search :=
    List.map_map.trans (List.map_id _)
  have hids : ((s.unlisted l search).map s.recordView).map (·.record.id) =
      (s.unlisted l search).map (·.id) := List.map_map
  refine ⟨fun view hview => ?_, ?_, ?_, ⟨_, hserves, fun r => ?_⟩, fun hblank => ?_⟩
  · obtain ⟨r, hr, rfl⟩ := List.mem_map.mp hview
    exact recordView?_of_mem_recordsOf hi (mem_recordsOf_of_mem_found (mem_unlisted_iff.mp hr).1)
  · rw [List.pairwise_map]
    exact (hserves.ranks.ordered.imp newer_of_precedes).filter _
  · rw [hids]
    exact nodup_id_unlisted hi l search
  · rw [hrecords]
    exact mem_unlisted_iff
  · have hparts : ((s.unlisted l search).map (·.id) ++ (s.entriesOf l.id).map (·.recordId)).Perm
        ((s.recordsOf l.objectId).map (·.id)) := by
      have hcut := List.filter_append_perm (fun r : Record => !s.isListed l.id r.id)
        (s.found l.objectId search)
      simp only [Bool.not_not] at hcut
      refine ((perm_listed hs hl hblank).append_left _).trans ?_
      rw [← List.map_append]
      exact (hcut.trans (found_perm hblank)).map _
    rw [hids]
    refine ⟨hparts.nodup_iff.mpr ?_, hparts⟩
    exact List.pairwise_map.mpr (hi.records.filter _)

/-- What is available to a list is asked for under the list's object and then shown as a whole;
under any other object nothing is shown. Nothing is changed. -/
theorem available_of_mem_lists (h : s.Reachable) (hl : l ∈ s.lists) (setup : Setup) (stamp : Stamp)
    (search : Option String) :
    (∃ views, s.perform setup stamp (.available l.id l.objectId search) =
      .ok (.records views, s) ∧ s.Available setup l search views) ∧
    ∀ objectId, objectId ≠ l.objectId →
      s.perform setup stamp (.available l.id objectId search) =
        .error (.invalid (.foreignList l.slug objectId)) := by
  have hi := h.sound.indexed
  constructor
  · exact ⟨_, perform_look rfl (availableRecords_eq_ok hi hl setup search),
      available_unlisted h.sound h.offered hl setup search⟩
  · intro objectId hne
    have hrequire : s.requireList l.id = .ok l := requireList_eq_ok_iff.mpr (list?_eq_some hi hl)
    have hrefused : s.availableRecords setup l.id objectId search =
        .error (.invalid (.foreignList l.slug objectId)) :=
      bind_eq_error_iff.mpr (.inr ⟨l, hrequire,
        bind_eq_error_iff.mpr (.inl (require_eq_error_iff.mpr ⟨hne.symm, rfl⟩))⟩)
    exact perform_eq_error_iff.mpr (Session.Fails.unseen hrefused)

/-- The list has one of the two deals; the other is available to it, whatever the size of pages. -/
theorem available_example :
    let step := exampleStep 6 (.available (exampleId 4 0) (exampleId 0 0) (some " "))
    (∃ views, exampleStore.perform step.setup step.stamp step.call =
        .ok (.records views, exampleStore) ∧
      exampleStore.Available step.setup exampleStore.lists[0] (some " ") views) ∧
    exampleStore.perform step.setup step.stamp
        (.available (exampleId 4 0) (exampleId 0 1) (some " ")) =
      .error (.invalid (.foreignList "hot" (exampleId 0 1))) := by
  intro step
  obtain ⟨hshown, hforeign⟩ := available_of_mem_lists reachable_exampleStore
    (l := exampleStore.lists[0]) List.mem_cons_self step.setup step.stamp (some " ")
  exact ⟨hshown, hforeign (exampleId 0 1) (by decide)⟩

end Store

end RecordStore
