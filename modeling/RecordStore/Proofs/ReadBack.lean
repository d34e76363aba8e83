import RecordStore.Proofs.Hidden
import RecordStore.Proofs.Required

/-!
# What writes return

A call that creates or changes an object, an attribute, a list, a record or an entry returns it, and
it can be asked for again. Records and entries are returned as they are read; the others are put
together from what was asked for. Main statement: what is returned is what is then read, except for
an attribute whose settings do not come back from their text, and for one that comes to a type with
choices of its own or leaves one and is returned with the choices that it showed before.
-/

namespace RecordStore

/-! ### Asking again -/

/-- Calls that return what they have written. -/
def Call.ReturnsWritten : Call → Prop
  | .createObject _ | .updateObject _ _ | .createAttribute _ | .updateAttribute _ _
  | .createList _ | .updateList _ _ | .createRecord _ | .updateRecord _ | .assertRecord _
  | .addEntry _ | .updateEntry _ _ _ => True
  | _ => False

/-- The call that reads what a call has returned as written. -/
def Call.again? : Call → Answer → Option Call
  | .createObject _, .object o => some (.object o.id)
  | .updateObject id _, .object _ => some (.object id)
  | .createAttribute _, .anAttribute a => some (.anAttribute a.id)
  | .updateAttribute id _, .anAttribute _ => some (.anAttribute id)
  | .createList _, .list l => some (.list l.id)
  | .updateList id _, .list _ => some (.list id)
  | .createRecord new, .record view => some (.record new.objectId view.record.id)
  | .updateRecord changes, .record _ => some (.record changes.objectId changes.recordId)
  | .assertRecord assertion, .record view => some (.record assertion.objectId view.record.id)
  | .addEntry _, .entry view => some (.entry view.entry.id)
  | .updateEntry id _ _, .entry _ => some (.entry id)
  | _, _ => none

/-! ### Choices in turn -/

/-- Items of one owner whose places go up from a first one. -/
structure InTurn {α : Type} (owner : α → Id) (place : α → Int32) (id : Id) (first : Nat)
    (items : List α) : Prop where
  owned : ∀ a ∈ items, owner a = id
  above : ∀ a ∈ items, first ≤ (place a).toInt
  sorted : items.Pairwise fun a b => place a ≤ place b

namespace InTurn

variable {α : Type} {owner : α → Id} {place : α → Int32} {id : Id} {first : Nat} {items : List α}

theorem nil : InTurn owner place id first [] := ⟨by simp, by simp, .nil⟩

theorem cons {a : α} (howner : owner a = id) (hfirst : first < placeCount)
    (hplace : place a = Int32.ofNat first) (h : InTurn owner place id (first + 1) items) :
    InTurn owner place id first (a :: items) := by
  have hfirst' : (place a).toInt = first := hplace ▸ toInt_ofNat_of_lt_placeCount hfirst
  refine ⟨List.forall_mem_cons.mpr ⟨howner, h.owned⟩,
    List.forall_mem_cons.mpr ⟨hfirst'.ge, fun b hb => ?_⟩,
    List.pairwise_cons.mpr ⟨fun b hb => Int32.le_iff_toInt_le.mpr ?_, h.sorted⟩⟩
  all_goals
    have hnext := h.above b hb
    push_cast at hnext
    omega

/-- Of rows to which the first items of an owner are added in turn, these are picked as they are. -/
theorem mergeSort_filter_append (h : InTurn owner place id first items) {rows : List α}
    (hrows : ∀ a ∈ rows, owner a ≠ id) :
    ((rows ++ items).filter fun a => owner a == id).mergeSort (fun a b => place a ≤ place b) =
      items := by
  have hnone : (rows.filter fun a => owner a == id) = [] :=
    List.filter_eq_nil_iff.mpr fun a ha hid => hrows a ha (beq_iff_eq.mp hid)
  have hall : (items.filter fun a => owner a == id) = items :=
    List.filter_eq_self.mpr fun a ha => beq_iff_eq.mpr (h.owned a ha)
  rw [List.filter_append, hnone, hall, List.nil_append]
  exact List.mergeSort_of_pairwise (h.sorted.imp fun {a b} hab => decide_eq_true hab)

end InTurn

namespace Session

variable {s : Store}

theorem inTurn_insertOptions (setup : Setup) (stamp : Stamp) (id : Id) {place : Nat}
    {new : List NewOption} (hfew : place + new.length ≤ placeCount) :
    Yields s (insertOptions setup stamp id place new) fun options t =>
      t = { s with options := s.options ++ options } ∧ (new = [] → options = []) ∧
      InTurn SelectOption.attributeId SelectOption.sortOrder id place options := by
  induction new generalizing s place with
  | nil => exact .pure ⟨by simp, fun _ => rfl, .nil⟩
  | cons o rest ih =>
    rw [List.length_cons] at hfew
    refine .bind (.liftM fun title _ => .bind (.write fun _ => .pure (.liftM fun _ _ => ?_)))
    refine .bind ((ih (by omega)).mono ?_)
    rintro options t ⟨rfl, -, hrest⟩
    exact .pure ⟨by simp, by simp, .cons rfl (by omega) rfl hrest⟩

theorem inTurn_insertStatuses (setup : Setup) (stamp : Stamp) (id : Id) {place : Nat}
    {new : List NewStatus} (hfew : place + new.length ≤ placeCount) :
    Yields s (insertStatuses setup stamp id place new) fun statuses t =>
      t = { s with statuses := s.statuses ++ statuses } ∧ (new = [] → statuses = []) ∧
      InTurn Status.attributeId Status.sortOrder id place statuses := by
  induction new generalizing s place with
  | nil => exact .pure ⟨by simp, fun _ => rfl, .nil⟩
  | cons u rest ih =>
    rw [List.length_cons] at hfew
    refine .bind (.liftM fun title _ => .bind (.write fun _ => .pure (.liftM fun _ _ => ?_)))
    refine .bind ((ih (by omega)).mono ?_)
    rintro statuses t ⟨rfl, -, hrest⟩
    exact .pure ⟨by simp, by simp, .cons rfl (by omega) rfl hrest⟩

theorem choices_of_check {new : NewAttribute} (h : new.check = .ok ()) :
    (new.options = [] ∨ new.type = .select) ∧ (new.statuses = [] ∨ new.type = .status) := by
  obtain ⟨_, -, h⟩ := bind_eq_ok_iff.mp h
  obtain ⟨_, -, h⟩ := bind_eq_ok_iff.mp h
  obtain ⟨_, -, h⟩ := bind_eq_ok_iff.mp h
  obtain ⟨_, hoptions, h⟩ := bind_eq_ok_iff.mp h
  obtain ⟨_, hstatuses, -⟩ := bind_eq_ok_iff.mp h
  exact ⟨require_eq_ok_iff.mp hoptions, require_eq_ok_iff.mp hstatuses⟩

/-! ### Attributes -/

/-- A new attribute is returned with the choices that it then has. -/
theorem yields_insertWithChoices (hs : s.Linked) (setup : Setup) (stamp : Stamp)
    {head : AttributeHead} {newOptions : List NewOption} {newStatuses : List NewStatus}
    (hoptions : newOptions = [] ∨ head.type = .select)
    (hstatuses : newStatuses = [] ∨ head.type = .status)
    (hfew : newOptions.length ≤ placeCount ∧ newStatuses.length ≤ placeCount) :
    Yields s (insertWithChoices setup stamp head newOptions newStatuses) fun a t =>
      head ∈ t.attributes ∧ a = { t.withChoices head with toAttributeHead := head } := by
  refine .bind (.write fun apart => .liftM fun _ _ => .bind ?_)
  -- choices belong to attributes that are there, so the new one has none yet
  have hunused : ∀ id, (∃ a ∈ s.attributes, a.id = id) → id ≠ head.id := by
    rintro _ ⟨a, ha, rfl⟩
    exact (apart a ha).1
  refine (inTurn_insertOptions setup stamp head.id (by omega)).mono ?_
  rintro options _ ⟨rfl, hnoOptions, hoptionsInTurn⟩
  refine .bind ((inTurn_insertStatuses setup stamp head.id (by omega)).mono ?_)
  rintro statuses _ ⟨rfl, hnoStatuses, hstatusesInTurn⟩
  refine .pure ⟨List.mem_append_right _ (List.mem_singleton.mpr rfl), ?_⟩
  have hreadOptions := hoptionsInTurn.mergeSort_filter_append
    fun o ho => hunused _ (hs.options o ho)
  have hreadStatuses := hstatusesInTurn.mergeSort_filter_append
    fun u hu => hunused _ (hs.statuses u hu)
  simp only [Store.withChoices, hreadOptions, hreadStatuses]
  congr 1
  · split
    · rfl
    · exact hnoOptions (hoptions.resolve_right ‹_›)
  · split
    · rfl
    · exact hnoStatuses (hstatuses.resolve_right ‹_›)

theorem returned_createAttribute (hs : s.Linked) (setup : Setup) (stamp : Stamp)
    (new : NewAttribute) :
    Yields s (createAttribute setup stamp new) fun a t => ∃ head ∈ t.attributes,
      head.settings = new.settingsOrEmpty ∧
        a = { t.withChoices head with toAttributeHead := head } := by
  refine .liftM fun _ hcheck => .liftM fun title _ => .get (.liftM fun _ _ => .liftM fun _ _ => ?_)
  obtain ⟨hoptions, hstatuses⟩ := choices_of_check hcheck
  refine .liftM fun place hplace => .transaction ?_
  refine (yields_insertWithChoices hs setup stamp hoptions hstatuses
    (NewAttribute.few_of_place hplace)).mono ?_
  rintro a t ⟨hmem, ha⟩
  exact ⟨_, hmem, rfl, ha⟩

/-- A change leaves what makes an attribute the one that it is. -/
theorem replaced_of_changedAttribute {a next : AttributeHead} {changes : AttributeChanges}
    (h : s.changedAttribute a.kept changes = .ok next) : replaced next a = next := by
  obtain ⟨slug, title, -, -, -, rfl⟩ := Store.changedAttribute_eq_ok h
  exact if_pos rfl

/-- A changed attribute is returned with the choices from before. -/
theorem returned_updateAttribute (hi : s.Indexed) (id : Id) (changes : AttributeChanges) :
    Yields s (updateAttribute id changes) fun changed t => ∃ a ∈ s.attributes, a.id = id ∧
      ∃ next ∈ t.attributes, next.id = a.id ∧ next.type = changes.type.getD a.type ∧
        next.settings = changes.settings.getD a.settings.kept ∧
        t.options = s.options ∧ t.statuses = s.statuses ∧
        changed = { s.withChoices a with toAttributeHead := next } := by
  intro changed t hrun
  obtain ⟨current, u, hlook, -⟩ := run_bind_eq_ok.mp hrun
  obtain ⟨⟨a, ha, rfl⟩, rfl⟩ := Store.has_of_requireAttribute (run_liftM_eq_ok.mp hlook).1
  obtain ⟨next, hnext, rfl, hreplace⟩ := yields_updateAttribute hi ha changes hrun
  obtain ⟨hattributes, hoptions, hstatuses, -⟩ := rows_replaceAttribute hi _ _ hreplace
  have hmem : next ∈ t.attributes := by
    rw [hattributes]
    exact List.mem_map.mpr ⟨a, ha, replaced_of_changedAttribute hnext⟩
  obtain ⟨slug, title, -, -, -, hform⟩ := Store.changedAttribute_eq_ok hnext
  refine ⟨a, ha, rfl, next, hmem, ?_, ?_, ?_, hoptions, hstatuses, rfl⟩
  all_goals
    rw [hform]
    rfl

/-! ### Objects and lists -/

theorem returned_createObject (s : Store) (stamp : Stamp) (new : NewObject) :
    Yields s (createObject stamp new) fun o t => o ∈ t.objects := by
  refine .liftM fun _ _ => .liftM fun _ _ => .liftM fun _ _ => .get (.liftM fun _ _ => .bind ?_)
  exact .write fun _ => .pure (List.mem_append_right _ (List.mem_singleton.mpr rfl))

theorem returned_updateObject (s : Store) (id : Id) (changes : ObjectChanges) :
    Yields s (updateObject id changes) fun o t => o ∈ t.objects ∧ o.id = id := by
  refine .look fun current hcurrent => .liftM fun _ _ => .liftM fun _ _ => .bind (.modify ?_)
  obtain ⟨hmem, rfl⟩ := Store.mem_of_requireObject hcurrent
  exact .pure ⟨List.mem_map.mpr ⟨current, hmem, if_pos rfl⟩, rfl⟩

theorem returned_createList (s : Store) (stamp : Stamp) (new : NewList) :
    Yields s (createList stamp new) fun l t => l ∈ t.lists := by
  refine .liftM fun _ _ => .liftM fun _ _ => .look fun _ _ => .get (.liftM fun _ _ => .bind ?_)
  exact .write fun _ => .pure (List.mem_append_right _ (List.mem_singleton.mpr rfl))

theorem returned_updateList (s : Store) (id : Id) (changes : ListChanges) :
    Yields s (updateList id changes) fun l t => l ∈ t.lists ∧ l.id = id := by
  refine .look fun current hcurrent => .liftM fun _ _ => .bind (.modify ?_)
  obtain ⟨hmem, rfl⟩ := Store.mem_of_requireList hcurrent
  exact .pure ⟨List.mem_map.mpr ⟨current, hmem, if_pos rfl⟩, rfl⟩

/-! ### Records -/

theorem record_of_requireRecordView {objectId id : Id} {view : RecordView}
    (h : s.requireRecordView objectId id = .ok view) :
    view.record ∈ s.records ∧ view.record.id = id ∧ view.record.objectId = objectId := by
  obtain ⟨r, hr, rfl⟩ := Option.map_eq_some_iff.mp (Store.requireRecordView_eq_ok_iff.mp h)
  obtain ⟨hfound, hobject⟩ := Option.filter_eq_some_iff.mp hr
  obtain ⟨hmem, hid⟩ := mem_of_find?_key hfound
  exact ⟨hmem, hid, beq_iff_eq.mp hobject⟩

theorem recordView?_of_require {objectId id : Id} {view : RecordView}
    (h : s.requireRecordView objectId id = .ok view) :
    s.recordView? objectId id = some view ∧ view.record.id = id :=
  ⟨Store.requireRecordView_eq_ok_iff.mp h, (record_of_requireRecordView h).2.1⟩

theorem returned_createRecord (s : Store) (stamp : Stamp) (new : NewRecord) :
    Yields s (createRecord stamp new) fun view t =>
      t.recordView? new.objectId view.record.id = some view := by
  refine .look fun _ _ => .get (.liftM fun _ _ => .bind fun _ t _ => .lookOnly fun view hview => ?_)
  obtain ⟨hfound, hid⟩ := recordView?_of_require hview
  rwa [hid]

theorem returned_updateRecord (s : Store) (stamp : Stamp) (changes : RecordChanges) :
    Yields s (updateRecord stamp changes) fun view t =>
      t.recordView? changes.objectId changes.recordId = some view ∧
        view.record.id = changes.recordId :=
  .look fun _ _ => .get (.liftM fun _ _ => .bind fun _ _ _ => .lookOnly fun _ hview =>
    recordView?_of_require hview)

theorem returned_assertRecord (s : Store) (stamp : Stamp) (assertion : RecordAssertion) :
    Yields s (assertRecord stamp assertion) fun view t =>
      t.recordView? assertion.objectId view.record.id = some view := by
  refine .look fun _ _ => .get (.liftM fun found _ => ?_)
  dsimp only
  split
  · refine (returned_updateRecord s stamp _).mono ?_
    rintro view t ⟨hfound, hid⟩
    rwa [hid]
  · exact returned_createRecord s stamp _

/-! ### Entries -/

theorem entry_of_mem_entryViewsFrom {list : RecordList} {entries : List Entry}
    {pool : List (Id × RecordView)} {id : Id} {view : EntryView}
    (h : (id, view) ∈ s.entryViewsFrom list entries pool) :
    view.entry ∈ entries ∧ view.entry.id = id := by
  induction entries generalizing pool with
  | nil => cases h
  | cons e rest ih =>
    rw [Store.entryViewsFrom] at h
    split at h
    · rcases List.mem_cons.mp h with heq | h
      · cases heq
        exact ⟨List.mem_cons_self, rfl⟩
      · exact (ih h).imp_left (List.mem_cons_of_mem _)
    · exact (ih h).imp_left (List.mem_cons_of_mem _)

/-- An entry that is shown in a list that is there is the one that is found by its id. -/
theorem entryViewOf?_of_require (hi : s.Indexed) {list : RecordList} (hlist : list ∈ s.lists)
    {id : Id} {view : EntryView} (h : s.requireEntryView list id = .ok view) :
    s.entryViewOf? id = some view ∧ view.entry.id = id := by
  have hfound := Store.requireEntryView_eq_ok_iff.mp h
  obtain ⟨before, rest, hviews, -⟩ := List.lookup_eq_some_iff.mp hfound
  have hpair : (id, view) ∈ s.entryViews list [id] :=
    hviews ▸ List.mem_append_right _ List.mem_cons_self
  obtain ⟨hentry, rfl⟩ := entry_of_mem_entryViewsFrom hpair
  obtain ⟨hof, -⟩ := List.mem_filter.mp (List.mem_mergeSort.mp hentry)
  exact ⟨(Store.entryViewOf?_eq hi hlist hof).trans hfound, rfl⟩

theorem returned_addEntry (s : Store) (stamp : Stamp) (new : NewEntry) :
    Yields s (addEntry stamp new) fun view t => t.Indexed →
      t.entryViewOf? view.entry.id = some view := by
  refine .look fun list hlist => .look fun _ _ => .get (.liftM fun _ _ => .liftM fun _ _ => ?_)
  refine .liftM fun prepared _ => .bind (.transaction (.bind (.write fun _ => ?_)))
  refine (carries_applyValues _ .entries _ prepared).mono ?_
  rintro - t ⟨⟨rows, rfl⟩, -⟩
  refine .lookOnly fun view hview hi => ?_
  have hmem : list ∈ s.lists := (Store.mem_of_requireList hlist).1
  obtain ⟨hfound, hid⟩ := entryViewOf?_of_require hi (by simpa using hmem) hview
  rwa [hid]

theorem returned_updateEntry (s : Store) (stamp : Stamp) (id : Id) (given : List (String × Json)) :
    Yields s (updateEntry stamp id given) fun view t => t.Indexed →
      t.entryViewOf? id = some view := by
  refine .look fun _ _ => .look fun list hlist => .get (.liftM fun prepared _ => ?_)
  refine .bind (.transaction (.bind ((carries_applyValues s .entries id prepared).mono ?_)))
  rintro - u ⟨⟨rows, rfl⟩, -⟩
  refine .modify (.lookOnly fun view hview hi => ?_)
  have hmem : list ∈ s.lists := (Store.mem_of_requireList hlist).1
  exact (entryViewOf?_of_require hi (by simpa using hmem) hview).1

end Session

/-! ### What is read of an attribute -/

namespace Store

variable {s t : Store}

/-- An attribute has the same choices to show under another type: both are select or none, or there
is no option of the attribute; and so of status. -/
def SameChoices (s : Store) (a : AttributeHead) (type : ValueType) : Prop :=
  ((type = .select ↔ a.type = .select) ∨ ∀ o ∈ s.options, o.attributeId ≠ a.id) ∧
    ((type = .status ↔ a.type = .status) ∨ ∀ u ∈ s.statuses, u.attributeId ≠ a.id)

theorem ite_nil_eq_iff {α : Type} {p q : Prop} [Decidable p] [Decidable q] {l : List α} :
    (if p then l else []) = (if q then l else []) ↔ (p ↔ q) ∨ l = [] := by
  by_cases hp : p <;> by_cases hq : q <;> simp [hp, hq, eq_comm]

theorem mergeSort_filter_eq_nil_iff {α : Type} {rows : List α} {owner : α → Id} {id : Id}
    (le : α → α → Bool) :
    (rows.filter fun a => owner a == id).mergeSort le = [] ↔ ∀ a ∈ rows, owner a ≠ id := by
  rw [← List.length_eq_zero_iff, List.length_mergeSort, List.length_eq_zero_iff,
    List.filter_eq_nil_iff]
  simp

theorem kept_eq_self_iff {a : AttributeHead} : a.kept = a ↔ a.settings.kept = a.settings :=
  ⟨congrArg AttributeHead.settings, fun h => by rw [AttributeHead.kept, h]⟩

/-- An attribute put together from what was asked for and from the choices of before is the one that
is read, if its settings come back from their text and it has the same choices to show. -/
theorem withChoices_eq_iff {a next : AttributeHead} (hid : next.id = a.id)
    (hoptions : t.options = s.options) (hstatuses : t.statuses = s.statuses) :
    t.withChoices next = { s.withChoices a with toAttributeHead := next } ↔
      next.settings.kept = next.settings ∧ s.SameChoices a next.type := by
  rw [SameChoices, ← kept_eq_self_iff,
    ← mergeSort_filter_eq_nil_iff fun o p : SelectOption => o.sortOrder ≤ p.sortOrder,
    ← mergeSort_filter_eq_nil_iff fun u v : Status => u.sortOrder ≤ v.sortOrder,
    ← ite_nil_eq_iff, ← ite_nil_eq_iff]
  simp only [withChoices, Attribute.mk.injEq, hid, hoptions, hstatuses]

/-! ### What is read again -/

/-- What a call returns is what is read again: the settings of an attribute come back from their
text, and one that is changed has the same choices to show as before. -/
def ReadsBack (s : Store) : Call → Prop
  | .createAttribute new => new.settingsOrEmpty.kept = new.settingsOrEmpty
  | .updateAttribute id changes => ∀ a ∈ s.attributes, a.id = id →
      (changes.settings.getD a.settings.kept).kept = changes.settings.getD a.settings.kept ∧
        s.SameChoices a (changes.type.getD a.type)
  | _ => True

theorem exists_of_answering {α : Type} {setup : Setup} {stamp : Stamp} {call : Call}
    {answer : Answer} {f : α → Answer} {x : Session α}
    (h : Session.ofCall setup stamp call = Session.answering f x)
    (hok : s.perform setup stamp call = .ok (answer, t)) : ∃ a, x.run s = .ok a t ∧ answer = f a :=
  (perform_answering_eq_ok_iff h).mp hok

/-- What is found is the answer. -/
theorem answer_found {α : Type} {setup : Setup} {stamp : Stamp} {call : Call} {f : α → Answer}
    {find : Store → Option α} {a : α}
    (h : Session.ofCall setup stamp call = Session.tell fun s => .ofOption f (find s))
    (hfound : find s = some a) : s.answer setup stamp call = .ok (f a) := by
  rw [answer_tell h, hfound]
  rfl

section

variable (ht : t.Indexed) {setup : Setup} {stamp : Stamp}

include ht

theorem answer_object {o : Object} (ho : o ∈ t.objects) :
    t.answer setup stamp (.object o.id) = .ok (.object o) :=
  answer_found rfl (object?_eq_some ht ho)

theorem answer_list {l : RecordList} (hl : l ∈ t.lists) :
    t.answer setup stamp (.list l.id) = .ok (.list l) :=
  answer_found rfl (list?_eq_some ht hl)

theorem answer_anAttribute_iff {a : AttributeHead} (ha : a ∈ t.attributes) {b : Attribute} :
    t.answer setup stamp (.anAttribute a.id) = .ok (.anAttribute b) ↔ t.withChoices a = b := by
  have hfound : t.attribute? a.id = some (t.withChoices a) :=
    requireAttribute_eq_ok_iff.mp (Has.requireAttribute ht ⟨a, ha, rfl⟩)
  rw [answer_found rfl hfound, Except.ok.injEq, Answer.anAttribute.injEq]

end

/-- What a write returns is what is read then, just if the settings of an attribute come back from
their text and it keeps the choices that it shows. -/
theorem answer_again_iff (h : s.Reachable) {setup : Setup} {stamp : Stamp} {call : Call}
    {answer : Answer} (hwritten : call.ReturnsWritten)
    (hok : s.perform setup stamp call = .ok (answer, t)) :
    ∃ again, call.again? answer = some again ∧ ∀ setup' stamp',
      t.answer setup' stamp' again = .ok answer ↔ s.ReadsBack call := by
  have hi := h.sound.indexed
  have ht : t.Indexed := (h.perform hok).sound.indexed
  cases call with
  | createObject new =>
    obtain ⟨o, hrun, rfl⟩ := exists_of_answering rfl hok
    have hmem := Session.returned_createObject s stamp new hrun
    exact ⟨_, rfl, fun _ _ => iff_of_true (answer_object ht hmem) trivial⟩
  | updateObject id changes =>
    obtain ⟨o, hrun, rfl⟩ := exists_of_answering rfl hok
    obtain ⟨hmem, rfl⟩ := Session.returned_updateObject s id changes hrun
    exact ⟨_, rfl, fun _ _ => iff_of_true (answer_object ht hmem) trivial⟩
  | createAttribute new =>
    obtain ⟨a, hrun, rfl⟩ := exists_of_answering rfl hok
    obtain ⟨head, hmem, hsettings, rfl⟩ :=
      Session.returned_createAttribute h.sound.linked setup stamp new hrun
    refine ⟨_, rfl, fun _ _ => ?_⟩
    rw [answer_anAttribute_iff ht hmem, ReadsBack, ← hsettings, ← kept_eq_self_iff]
    simp [withChoices]
  | updateAttribute id changes =>
    obtain ⟨a, hrun, rfl⟩ := exists_of_answering rfl hok
    obtain ⟨b, hb, rfl, next, hmem, hid, htype, hsettings, hoptions, hstatuses, rfl⟩ :=
      Session.returned_updateAttribute hi id changes hrun
    refine ⟨_, rfl, fun _ _ => ?_⟩
    have hreads : s.ReadsBack (.updateAttribute b.id changes) ↔
        next.settings.kept = next.settings ∧ s.SameChoices b next.type := by
      rw [hsettings, htype]
      refine ⟨fun hall => hall b hb rfl, fun hreads c hc hcid => ?_⟩
      rwa [eq_of_pairwise_ne hi.attributeIds hc hb hcid]
    rw [hreads, ← withChoices_eq_iff hid hoptions hstatuses, ← hid,
      answer_anAttribute_iff ht hmem]
  | createList new =>
    obtain ⟨l, hrun, rfl⟩ := exists_of_answering rfl hok
    have hmem := Session.returned_createList s stamp new hrun
    exact ⟨_, rfl, fun _ _ => iff_of_true (answer_list ht hmem) trivial⟩
  | updateList id changes =>
    obtain ⟨l, hrun, rfl⟩ := exists_of_answering rfl hok
    obtain ⟨hmem, rfl⟩ := Session.returned_updateList s id changes hrun
    exact ⟨_, rfl, fun _ _ => iff_of_true (answer_list ht hmem) trivial⟩
  | createRecord new =>
    obtain ⟨view, hrun, rfl⟩ := exists_of_answering rfl hok
    have hfound := Session.returned_createRecord s stamp new hrun
    exact ⟨_, rfl, fun _ _ => iff_of_true (answer_found rfl hfound) trivial⟩
  | updateRecord changes =>
    obtain ⟨view, hrun, rfl⟩ := exists_of_answering rfl hok
    have hfound := (Session.returned_updateRecord s stamp changes hrun).1
    exact ⟨_, rfl, fun _ _ => iff_of_true (answer_found rfl hfound) trivial⟩
  | assertRecord assertion =>
    obtain ⟨view, hrun, rfl⟩ := exists_of_answering rfl hok
    have hfound := Session.returned_assertRecord s stamp assertion hrun
    exact ⟨_, rfl, fun _ _ => iff_of_true (answer_found rfl hfound) trivial⟩
  | addEntry new =>
    obtain ⟨view, hrun, rfl⟩ := exists_of_answering rfl hok
    have hfound := Session.returned_addEntry s stamp new hrun ht
    exact ⟨_, rfl, fun _ _ => iff_of_true (answer_found rfl hfound) trivial⟩
  | updateEntry id given actor =>
    obtain ⟨view, hrun, rfl⟩ := exists_of_answering rfl hok
    have hfound := Session.returned_updateEntry s stamp id given hrun ht
    exact ⟨_, rfl, fun _ _ => iff_of_true (answer_found rfl hfound) trivial⟩
  | _ => exact hwritten.elim

/-! ### Stages as texts -/

/-- Settings of some depth, without floats. -/
def stageSettings : Json :=
  .obj [("hints", .arr [.str "\"open\"", .int (-1)]), ("limits", .obj [("max", .int 9)])]

/-- Changes the stages of deals. -/
def restaging (changes : AttributeChanges) : Step :=
  exampleStep 2 (.updateAttribute stageAttribute.id changes)

def ofSettings (settings : Json) : AttributeChanges :=
  ⟨none, none, none, some settings, none, none, none, none⟩

def ofType (type : ValueType) : AttributeChanges :=
  ⟨none, none, some type, none, none, none, none, none⟩

theorem inOrder_stageSettings : stageSettings.InOrder := by
  have hkeys : [("hints", Json.arr [.str "\"open\"", .int (-1)]),
      ("limits", .obj [("max", .int 9)])].Pairwise fun p q => p.1 < q.1 := by
    exact List.pairwise_pair.mpr (by decide)
  exact ⟨hkeys, ⟨trivial, trivial, trivial⟩, ⟨List.pairwise_singleton _ _, trivial, trivial⟩, trivial⟩

theorem isWhole_stageSettings : stageSettings.IsWhole := by
  simp [stageSettings, Json.IsWhole, Json.WholeItems, Json.WholeMembers]

/-- The stages as texts. -/
def stageText : AttributeHead := { stageAttribute with type := .text }

def stageTexts : Store := { stageBase with attributes := [stageText] }

/-- What the change to texts returns. -/
def stillStages : Attribute := ⟨stageText, [openStage, wonStage], []⟩

theorem perform_restaging : stageBase.perform (restaging (ofType .text)).setup
    (restaging (ofType .text)).stamp (restaging (ofType .text)).call =
      .ok (.anAttribute stillStages, stageTexts) := by cbv

/-- Stages that are given settings are read as they are returned. -/
theorem answer_again_stages :
    stageBase.Reachable ∧ (restaging (ofSettings stageSettings)).call.ReturnsWritten ∧
      ∃ answer t again, stageBase.perform (restaging (ofSettings stageSettings)).setup
        (restaging (ofSettings stageSettings)).stamp (restaging (ofSettings stageSettings)).call =
          .ok (answer, t) ∧
        (restaging (ofSettings stageSettings)).call.again? answer = some again ∧
        ∀ setup stamp, t.answer setup stamp again = .ok answer := by
  have hwritten : (restaging (ofSettings stageSettings)).call.ReturnsWritten := trivial
  have hok : ∃ answer t, stageBase.perform (restaging (ofSettings stageSettings)).setup
      (restaging (ofSettings stageSettings)).stamp (restaging (ofSettings stageSettings)).call =
        .ok (answer, t) := ⟨_, _, by cbv⟩
  obtain ⟨answer, t, hok⟩ := hok
  obtain ⟨again, hagain, hreads⟩ := answer_again_iff reachable_stageBase hwritten hok
  refine ⟨reachable_stageBase, hwritten, answer, t, again, hok, hagain, fun setup stamp =>
    (hreads setup stamp).mpr fun a ha _ => ?_⟩
  obtain rfl := List.mem_singleton.mp ha
  exact ⟨Json.kept_eq_self inOrder_stageSettings isWhole_stageSettings, .inl Iff.rfl, .inl Iff.rfl⟩

/-- Stages that become texts are returned with their options, which texts do not show. -/
theorem not_answer_again_stages :
    stageBase.Reachable ∧ (restaging (ofType .text)).call.ReturnsWritten ∧
      ∃ answer t again, stageBase.perform (restaging (ofType .text)).setup
        (restaging (ofType .text)).stamp (restaging (ofType .text)).call = .ok (answer, t) ∧
        (restaging (ofType .text)).call.again? answer = some again ∧
        ∀ setup stamp, t.answer setup stamp again ≠ .ok answer := by
  refine ⟨reachable_stageBase, trivial, _, stageTexts, _, perform_restaging, rfl,
    fun setup stamp h => ?_⟩
  rw [answer_tell rfl] at h
  have hsame : stageTexts.withChoices stageText = stillStages :=
    Answer.anAttribute.inj (Except.ok.inj h)
  have hoptions : [] = [openStage, wonStage] := congrArg Attribute.options hsame
  cases hoptions

end Store

end RecordStore
