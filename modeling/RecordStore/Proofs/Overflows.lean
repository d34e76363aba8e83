import RecordStore.Proofs.Assertions
import RecordStore.Proofs.FirstFailures

/-!
# The end of the calendar

The last day of the calendar is 31 December 9999. A timestamp on the evening of that day, written
with an offset to the west, lies in universal time after it. Main statement: a date attribute that
is given such a text is all that leads out of the calendar, be it in a value, in an operand of a
filter, or in any call of a store.
-/

namespace RecordStore

/-! ### What calls are given -/

/-- What the conditions of a filter compare with, item by item. -/
def itemsCompared (attributes : List Attribute) (filter : Option Filter) :
    List (Attribute × Json) :=
  (Filter.conditions filter).flatMap fun c => itemsNamed attributes c.slug fun _ => c.compared

namespace Store

/-- What a call gives to attributes: values to be written and operands of filters. -/
def given (s : Store) : Call → List (Attribute × Json)
  | .createRecord new => itemsGiven (s.attributesOf (.object new.objectId)) new.values
  | .updateRecord changes => itemsGiven (s.attributesOf (.object changes.objectId)) changes.values
  | .assertRecord assertion => itemsGiven (s.attributesOf (.object assertion.objectId))
      ((assertion.matching, assertion.matchingValue) :: assertion.values)
  | .addEntry new => itemsGiven (s.attributesOf (.list new.listId)) new.values
  | .updateEntry id values _ =>
    match s.entry? id with
    | some entry => itemsGiven (s.attributesOf (.list entry.listId)) values
    | none => []
  | .listRecords objectId query =>
    itemsCompared (s.attributesOf (.object objectId)) query.filter
  | .listEntries listId query => itemsCompared (s.attributesOf (.list listId)) query.filter
  | _ => []

end Store

theorem insertKey_subset {α : Type} (key : String) (value : α) (pairs : List (String × α)) :
    insertKey key value pairs ⊆ (key, value) :: pairs := by
  induction pairs with
  | nil => simp [insertKey]
  | cons p rest ih =>
    rw [insertKey]
    split
    · exact List.Subset.refl _
    split
    · exact List.cons_subset_cons _ (List.subset_cons_self _ _)
    · intro q hq
      rcases List.mem_cons.mp hq with rfl | hq
      · simp
      · rcases List.mem_cons.mp (ih hq) with rfl | hq <;> simp [*]

theorem addMissing_subset (slug : String) (value : Json) (values : List (String × Json)) :
    addMissing slug value values ⊆ (slug, value) :: values := by
  unfold addMissing
  split
  · exact List.subset_cons_self _ _
  · exact insertKey_subset slug value values

theorem compileQuery_overflows {unknown : UnknownPolicy} {attributes : List Attribute} {q : Query}
    (h : compileQuery unknown attributes q = .error .calendarOverflow) :
    SomeOverflows (itemsCompared attributes q.filter) := by
  obtain ⟨c, hc, hover⟩ := (compileQuery_eq_overflow_iff.mp h).exists
  obtain ⟨a, hfind, hfirst⟩ := compileCondition_eq_overflow_iff.mp hover
  obtain ⟨raw, hraw, hover⟩ := hfirst.first.exists
  exact ⟨(a, raw), List.mem_flatMap.mpr ⟨c, hc, mem_itemsNamed.mpr ⟨hfind, hraw⟩⟩,
    coerceOperand_eq_overflow_iff.mp hover⟩

/-! ### Blame -/

/-- An error is none of the calendar, or this is to blame. -/
def Blames (p : Prop) (e : Error) : Prop := e = .calendarOverflow → p

@[simp] theorem blames_iff {p : Prop} {e : Error} : Blames p e ↔ (e = .calendarOverflow → p) :=
  Iff.rfl

theorem Mishap.blames {p : Prop} {e : Error} (h : Mishap p e) : Blames p e := by
  rintro rfl
  exact overflow_iff.mp h

section

variable {p : Prop} (s : Store) (id : Id)

theorem FailsOnly.blames {α : Type} {x : Except Error α} (h : FailsOnly (Mishap p) x) :
    FailsOnly (Blames p) x := h.mono fun _ he => he.blames

theorem requireObject_blames : FailsOnly (Blames p) (s.requireObject id) := by
  unfold Store.requireObject
  split <;> simp

theorem requireRecord_blames (objectId : Id) :
    FailsOnly (Blames p) (s.requireRecord objectId id) := by
  unfold Store.requireRecord
  split
  · split <;> simp
  · simp

theorem requireRecordView_blames (objectId : Id) :
    FailsOnly (Blames p) (s.requireRecordView objectId id) := by
  unfold Store.requireRecordView
  split <;> simp

theorem requireAnyRecord_blames : FailsOnly (Blames p) (s.requireAnyRecord id) := by
  unfold Store.requireAnyRecord
  split <;> simp

theorem requireList_blames : FailsOnly (Blames p) (s.requireList id) := by
  unfold Store.requireList
  split <;> simp

theorem requireEntry_blames : FailsOnly (Blames p) (s.requireEntry id) := by
  unfold Store.requireEntry
  split <;> simp

theorem requireEntryView_blames (list : RecordList) :
    FailsOnly (Blames p) (s.requireEntryView list id) := by
  unfold Store.requireEntryView
  split <;> simp

theorem requireAttribute_blames : FailsOnly (Blames p) (s.requireAttribute id) := by
  unfold Store.requireAttribute
  split <;> simp

theorem requireOption_blames : FailsOnly (Blames p) (s.requireOption id) := by
  unfold Store.requireOption
  split <;> simp

theorem requireStatus_blames : FailsOnly (Blames p) (s.requireStatus id) := by
  unfold Store.requireStatus
  split <;> simp

theorem requireChoices_blames (expected : ValueType) :
    FailsOnly (Blames p) (s.requireChoices id expected) :=
  (requireAttribute_blames s id).bind fun _ => (FailsOnly.require (by simp)).bind fun _ => .ok _

theorem checkSlug_blames (slug : String) : FailsOnly (Blames p) (checkSlug slug) := by
  unfold checkSlug
  split
  · simp
  split
  · simp
  split <;> simp

theorem requireName_blames (field : NameField) (text : String) :
    FailsOnly (Blames p) (requireName field text) := by
  unfold requireName
  split <;> simp

theorem changedName_blames (field : NameField) (current : String) (asked : Option String) :
    FailsOnly (Blames p) (changedName field current asked) := by
  cases asked with
  | none => exact .ok _
  | some name => exact requireName_blames field name

theorem pass_blames (setup : Setup) (point : Failpoint) :
    FailsOnly (Blames p) (setup.pass point) := by
  unfold Setup.pass
  split <;> simp

theorem check_blames (new : NewAttribute) : FailsOnly (Blames p) new.check :=
  (checkSlug_blames new.slug).bind fun _ => (FailsOnly.require (by simp)).bind fun _ =>
    (FailsOnly.require (by simp)).bind fun _ => (FailsOnly.require (by simp)).bind fun _ =>
      (FailsOnly.require (by simp)).bind fun _ => .require (by simp)

theorem nextPlace_blames (places : List Int32) : FailsOnly (Blames p) (nextPlace places) :=
  fun e he => by simp [← (nextPlace_eq_error_iff.mp he).2]

theorem place_blames (new : NewAttribute) (places : List Int32) :
    FailsOnly (Blames p) (new.place places) :=
  fun e he => by simp [NewAttribute.eq_placeOverflow_of_place he]

theorem changedAttribute_blames (current : AttributeHead) (changes : AttributeChanges) :
    FailsOnly (Blames p) (s.changedAttribute current changes) := by
  have hslug : FailsOnly (Blames p) (s.changedSlug current changes.slug) := by
    cases changes.slug with
    | none => exact .ok _
    | some slug =>
      exact (checkSlug_blames slug).bind fun _ => (FailsOnly.require (by simp)).bind fun _ => .ok _
  have htype : FailsOnly (Blames p) (Store.changedType current changes.type) := by
    cases changes.type with
    | none => exact .ok _
    | some type => exact (FailsOnly.require (by simp)).bind fun _ => .ok _
  have hsettings : FailsOnly (Blames p) (Store.changedSettings current changes.settings) := by
    cases changes.settings with
    | none => exact .ok _
    | some settings => exact (FailsOnly.require (by simp)).bind fun _ => .ok _
  exact hslug.bind fun _ => (changedName_blames _ _ _).bind fun _ => htype.bind fun _ =>
    hsettings.bind fun _ => (FailsOnly.require (by simp)).bind fun _ => .ok _

end

theorem Store.id_of_requireList {s : Store} {id : Id} {l : RecordList}
    (h : s.requireList id = .ok l) : l.id = id := by
  exact (mem_of_find?_key (requireList_eq_ok_iff.mp h)).2

namespace Session

variable {p : Prop} {s : Store}

/-! ### Schema -/

theorem createObject_blames {stamp : Stamp} {new : NewObject} :
    MayFail s (createObject stamp new) (Blames p) := by
  refine .liftM (checkSlug_blames _) fun _ _ => .liftM (requireName_blames _ _) fun _ _ =>
    .liftM (requireName_blames _ _) fun _ _ => .get ?_
  exact .liftM (FailsOnly.require (by simp)) fun _ _ => .bind (.write (by simp)) fun _ _ _ => .pure

theorem updateObject_blames {id : Id} {changes : ObjectChanges} :
    MayFail s (updateObject id changes) (Blames p) :=
  .look (requireObject_blames _ _) fun _ _ => .liftM (changedName_blames _ _ _) fun _ _ =>
    .liftM (changedName_blames _ _ _) fun _ _ => .bind .modify fun _ _ _ => .pure

theorem insertOption_blames {attributeId id : Id} {place : Int32} {new : NewOption} :
    MayFail s (insertOption attributeId id place new) (Blames p) :=
  .liftM (requireName_blames _ _) fun _ _ => .bind (.write (by simp)) fun _ _ _ => .pure

theorem insertStatus_blames {attributeId id : Id} {place : Int32} {new : NewStatus} :
    MayFail s (insertStatus attributeId id place new) (Blames p) :=
  .liftM (requireName_blames _ _) fun _ _ => .bind (.write (by simp)) fun _ _ _ => .pure

theorem insertOptions_blames {setup : Setup} {stamp : Stamp} {attributeId : Id}
    {news : List NewOption} {place : Nat} :
    MayFail s (insertOptions setup stamp attributeId place news) (Blames p) := by
  induction news generalizing s place with
  | nil => exact .pure
  | cons new rest ih =>
    exact .bind insertOption_blames fun _ _ _ => .liftM (pass_blames _ _) fun _ _ =>
      .bind ih fun _ _ _ => .pure

theorem insertStatuses_blames {setup : Setup} {stamp : Stamp} {attributeId : Id}
    {news : List NewStatus} {place : Nat} :
    MayFail s (insertStatuses setup stamp attributeId place news) (Blames p) := by
  induction news generalizing s place with
  | nil => exact .pure
  | cons new rest ih =>
    exact .bind insertStatus_blames fun _ _ _ => .liftM (pass_blames _ _) fun _ _ =>
      .bind ih fun _ _ _ => .pure

theorem createAttribute_blames {setup : Setup} {stamp : Stamp} {new : NewAttribute} :
    MayFail s (createAttribute setup stamp new) (Blames p) := by
  refine .liftM (check_blames _) fun _ _ => .liftM (requireName_blames _ _) fun _ _ => .get ?_
  refine .liftM (FailsOnly.require (by simp)) fun _ _ =>
    .liftM (FailsOnly.require (by simp)) fun _ _ =>
      .liftM (place_blames _ _) fun _ _ => .transaction ?_
  exact .bind (.write (by simp)) fun _ _ _ => .liftM (pass_blames _ _) fun _ _ =>
    .bind insertOptions_blames fun _ _ _ => .bind insertStatuses_blames fun _ _ _ => .pure

theorem rekeyRows_blames {table : ValueTable} {a : Attribute} {rows : List ValueRow}
    {seen : List String} : MayFail s (rekeyRows table a seen rows) (Blames p) := by
  induction rows generalizing s seen with
  | nil => exact .pure
  | cons row rest ih =>
    unfold rekeyRows
    split
    · exact ih
    · rename_i cell _
      exact .liftM (uniqueKeyOf_failsOnly a cell).blames fun _ _ =>
        .liftM (FailsOnly.require (by simp)) fun _ _ => .bind (.write (by simp)) fun _ _ _ => ih

theorem rekey_blames {table : ValueTable} {a : Attribute} :
    MayFail s (rekey table a) (Blames p) := by
  unfold rekey
  split
  · exact .get rekeyRows_blames
  · exact .modify

theorem updateAttribute_blames {id : Id} {changes : AttributeChanges} :
    MayFail s (updateAttribute id changes) (Blames p) := by
  refine .look (requireAttribute_blames _ _) fun current _ =>
    .look (changedAttribute_blames _ _ _) fun next _ =>
      .bind (.transaction (.get ?_)) fun _ _ _ => .pure
  refine .liftM (FailsOnly.require (by simp)) fun _ _ => .bind (.write (by simp)) fun _ _ _ => ?_
  dsimp only
  split
  · exact rekey_blames
  · exact .pure

/-! ### Choices -/

theorem addOption_blames {stamp : Stamp} {attributeId : Id} {new : NewOption} :
    MayFail s (addOption stamp attributeId new) (Blames p) :=
  .look (requireChoices_blames _ _ _) fun _ _ =>
    .liftM (nextPlace_blames _) fun _ _ => insertOption_blames

theorem addStatus_blames {stamp : Stamp} {attributeId : Id} {new : NewStatus} :
    MayFail s (addStatus stamp attributeId new) (Blames p) :=
  .look (requireChoices_blames _ _ _) fun _ _ =>
    .liftM (nextPlace_blames _) fun _ _ => insertStatus_blames

theorem dropMembers_blames {table : ValueTable} {a : Attribute} {member : Json}
    {rows : List ValueRow} : MayFail s (dropMembers table a member rows) (Blames p) := by
  induction rows generalizing s with
  | nil => exact .pure
  | cons row rest ih =>
    refine .bind ?_ fun _ _ _ => ih
    unfold dropMemberOf
    split
    · split
      · unfold dropMember
        split
        · exact .modify
        · exact .liftM (storedKeyOf_failsOnly a _).blames fun _ _ => .write (by simp)
      · exact .pure
    · exact .pure

theorem detachChoice_blames {a : Attribute} {choice : Id} :
    MayFail s (detachChoice a choice) (Blames p) := by
  unfold detachChoice
  dsimp only
  split
  · exact .get dropMembers_blames
  · exact .modify

theorem removeOption_blames {id : Id} : MayFail s (removeOption id) (Blames p) :=
  .look (requireOption_blames _ _) fun _ _ => .look (requireChoices_blames _ _ _) fun _ _ =>
    .transaction (.bind .modify fun _ _ _ => detachChoice_blames)

theorem removeStatus_blames {id : Id} : MayFail s (removeStatus id) (Blames p) :=
  .look (requireStatus_blames _ _) fun _ _ => .look (requireChoices_blames _ _ _) fun _ _ =>
    .transaction (.bind .modify fun _ _ _ => detachChoice_blames)

/-! ### Removals -/

theorem purgeAttributes_blames {setup : Setup} {table : ValueTable} {ids : List Id} :
    MayFail s (purgeAttributes setup table ids) (Blames p) := by
  unfold purgeAttributes
  split
  · exact .pure
  · exact .bind .modify fun _ _ _ => .bind .modify fun _ _ _ => .bind .modify fun _ _ _ =>
      .liftM (pass_blames _ _) fun _ _ => .modify

theorem purgeList_blames {setup : Setup} {id : Id} :
    MayFail s (purgeList setup id) (Blames p) :=
  .get <| .bind purgeAttributes_blames fun _ _ _ => .get <| .bind .modify fun _ _ _ =>
    .bind .modify fun _ _ _ => .liftM (pass_blames _ _) fun _ _ => .modify

theorem purgeLists_blames {setup : Setup} {ids : List Id} :
    MayFail s (purgeLists setup ids) (Blames p) := by
  induction ids generalizing s with
  | nil => exact .pure
  | cons id rest ih => exact .bind purgeList_blames fun _ _ _ => ih

theorem deleteObject_blames {setup : Setup} {id : Id} :
    MayFail s (deleteObject setup id) (Blames p) := by
  refine .look (requireObject_blames _ _) fun _ _ => .liftM (FailsOnly.require (by simp))
    fun _ _ => .transaction (.get ?_)
  exact .bind purgeLists_blames fun _ _ _ => .get <| .bind purgeAttributes_blames fun _ _ _ =>
    .bind .modify fun _ _ _ => .modify

theorem deleteAttribute_blames {setup : Setup} {id : Id} :
    MayFail s (deleteAttribute setup id) (Blames p) :=
  .look (requireAttribute_blames _ _) fun _ _ => .liftM (FailsOnly.require (by simp)) fun _ _ =>
    .transaction purgeAttributes_blames

theorem deleteRecord_blames {setup : Setup} {objectId id : Id} :
    MayFail s (deleteRecord setup objectId id) (Blames p) :=
  .look (requireRecord_blames _ _ _) fun _ _ => .transaction <| .get <|
    .bind .modify fun _ _ _ => .bind .modify fun _ _ _ => .liftM (pass_blames _ _) fun _ _ =>
      .bind .modify fun _ _ _ => .liftM (pass_blames _ _) fun _ _ => .modify

theorem deleteList_blames {setup : Setup} {id : Id} :
    MayFail s (deleteList setup id) (Blames p) :=
  .look (requireList_blames _ _) fun _ _ => .transaction purgeList_blames

theorem removeEntry_blames {id : Id} : MayFail s (removeEntry id) (Blames p) :=
  .look (requireEntry_blames _ _) fun _ _ => .transaction (.bind .modify fun _ _ _ => .modify)

/-! ### Values -/

theorem storeValues_blames {table : ValueTable} {owner : Id} {sets : List (Attribute × Cell)} :
    MayFail s (storeValues table owner sets) (Blames p) := by
  induction sets generalizing s with
  | nil => exact .pure
  | cons q rest ih =>
    refine .bind ?_ fun _ _ _ => ih
    exact .liftM (storedKeyOf_failsOnly q.1 q.2).blames fun _ _ => .get <|
      .liftM (FailsOnly.require (by simp)) fun _ _ => .write (by simp)

theorem clearValues_blames {table : ValueTable} {owner : Id} {clears : List Attribute} :
    MayFail s (clearValues table owner clears) (Blames p) := by
  induction clears generalizing s with
  | nil => exact .pure
  | cons a rest ih => exact .bind .modify fun _ _ _ => ih

theorem applyValues_blames {table : ValueTable} {owner : Id} {prepared : Prepared} :
    MayFail s (applyValues table owner prepared) (Blames p) :=
  .bind storeValues_blames fun _ _ _ => clearValues_blames

theorem createRecord_blames {stamp : Stamp} {new : NewRecord} :
    MayFail s (createRecord stamp new) (Blames
      (SomeOverflows (itemsGiven (s.attributesOf (.object new.objectId)) new.values))) := by
  refine .look (requireObject_blames _ _) fun _ _ => .get <|
    .liftM (prepareValues_failsOnly _ _ _).blames fun _ _ => ?_
  refine .bind (.transaction ?_) fun _ _ _ => .lookOnly (requireRecordView_blames _ _ _)
  exact .bind (.write (by simp)) fun _ _ _ => applyValues_blames

theorem updateRecord_blames {stamp : Stamp} {changes : RecordChanges} :
    MayFail s (updateRecord stamp changes) (Blames
      (SomeOverflows (itemsGiven (s.attributesOf (.object changes.objectId)) changes.values))) := by
  refine .look (requireRecord_blames _ _ _) fun _ _ => .get <|
    .liftM (prepareValues_failsOnly _ _ _).blames fun _ _ => ?_
  refine .bind (.transaction ?_) fun _ _ _ => .lookOnly (requireRecordView_blames _ _ _)
  exact .bind applyValues_blames fun _ _ _ => .modify

theorem addEntry_blames {stamp : Stamp} {new : NewEntry} :
    MayFail s (addEntry stamp new) (Blames
      (SomeOverflows (itemsGiven (s.attributesOf (.list new.listId)) new.values))) := by
  refine .look (requireList_blames _ _) fun list hlist => ?_
  rw [← Store.id_of_requireList hlist]
  refine .look (requireAnyRecord_blames _ _) fun _ _ => .get <|
    .liftM (FailsOnly.require (by simp)) fun _ _ => .liftM (FailsOnly.require (by simp)) fun _ _ =>
      .liftM (prepareValues_failsOnly _ _ _).blames fun _ _ => ?_
  refine .bind (.transaction ?_) fun _ _ _ => .lookOnly (requireEntryView_blames _ _ _)
  exact .bind (.write (by simp)) fun _ _ _ => applyValues_blames

theorem updateEntry_blames {stamp : Stamp} {id : Id} {values : List (String × Json)} :
    MayFail s (updateEntry stamp id values) (Blames (∃ entry, s.entry? id = some entry ∧
      SomeOverflows (itemsGiven (s.attributesOf (.list entry.listId)) values))) := by
  refine .look (requireEntry_blames _ _) fun entry hentry =>
    .look (requireList_blames _ _) fun list hlist => .get ?_
  refine .liftM (((prepareValues_failsOnly _ _ _).weaken fun hover => ?_).blames) fun _ _ => ?_
  · rw [Store.id_of_requireList hlist] at hover
    exact ⟨entry, Store.requireEntry_eq_ok_iff.mp hentry, hover⟩
  · refine .bind (.transaction ?_) fun _ _ _ => .lookOnly (requireEntryView_blames _ _ _)
    exact .bind applyValues_blames fun _ _ _ => .modify

theorem assertRecord_blames {stamp : Stamp} {assertion : RecordAssertion} :
    MayFail s (assertRecord stamp assertion) (Blames (SomeOverflows
      (itemsGiven (s.attributesOf (.object assertion.objectId))
        ((assertion.matching, assertion.matchingValue) :: assertion.values)))) := by
  refine .look (requireObject_blames _ _) fun _ _ => .get <|
    .liftM (matchingCell_failsOnly _ _).blames fun found hfound => ?_
  obtain ⟨-, hslug, -⟩ := of_matchingCell hfound
  have hmore := addMissing_subset found.1.slug assertion.matchingValue assertion.values
  dsimp only
  rw [hslug] at hmore ⊢
  split
  · exact updateRecord_blames.mono fun _ he hover => (he hover).mono hmore
  · exact createRecord_blames.mono fun _ he hover => (he hover).mono hmore

/-! ### Lists and listings -/

theorem createList_blames {stamp : Stamp} {new : NewList} :
    MayFail s (createList stamp new) (Blames p) :=
  .liftM (checkSlug_blames _) fun _ _ => .liftM (requireName_blames _ _) fun _ _ =>
    .look (requireObject_blames _ _) fun _ _ => .get <|
      .liftM (FailsOnly.require (by simp)) fun _ _ =>
        .bind (.write (by simp)) fun _ _ _ => .pure

theorem updateList_blames {id : Id} {changes : ListChanges} :
    MayFail s (updateList id changes) (Blames p) :=
  .look (requireList_blames _ _) fun _ _ => .liftM (changedName_blames _ _ _) fun _ _ =>
    .bind .modify fun _ _ _ => .pure

theorem placeRecords_blames {place : Nat} {ids : List Id} :
    MayFail s (placeRecords place ids) (Blames p) := by
  induction ids generalizing s place with
  | nil => exact .pure
  | cons id rest ih => exact .bind .modify fun _ _ _ => ih

theorem reorder_blames {objectId : Id} {ids : List Id} :
    MayFail s (reorder objectId ids) (Blames p) :=
  .look (requireObject_blames _ _) fun _ _ => .get <|
    .liftM (FailsOnly.require (by simp)) fun _ _ => .liftM (FailsOnly.require (by simp)) fun _ _ =>
      .transaction placeRecords_blames

end Session

/-! ### Calls -/

namespace Store

variable (s : Store) {setup : Setup}

theorem selectRecords_blames (objectId : Id) (q : Query) : FailsOnly (Blames (SomeOverflows
    (itemsCompared (s.attributesOf (.object objectId)) q.filter)))
    (s.selectRecords setup objectId q) := by
  refine FailsOnly.bind (fun e he hover => ?_) fun _ => .ok _
  subst hover
  exact compileQuery_overflows he

theorem listRecords_blames (objectId : Id) (q : Query) : FailsOnly (Blames (SomeOverflows
    (itemsCompared (s.attributesOf (.object objectId)) q.filter)))
    (s.listRecords setup objectId q) :=
  (requireObject_blames s objectId).bind fun _ => (s.selectRecords_blames objectId q).bind
    fun _ => .ok _

theorem listEntries_blames (listId : Id) (q : Query) : FailsOnly (Blames (SomeOverflows
    (itemsCompared (s.attributesOf (.list listId)) q.filter)))
    (s.listEntries setup listId q) := by
  refine (requireList_blames s listId).bind fun _ => FailsOnly.bind ?_ fun _ => .ok _
  refine FailsOnly.bind (fun e he hover => ?_) fun _ => .ok _
  subst hover
  exact compileQuery_overflows he

theorem availableRecords_blames {p : Prop} (listId objectId : Id) (search : Option String) :
    FailsOnly (Blames p) (s.availableRecords setup listId objectId search) := by
  -- a listing without filter gives nothing to attributes
  have hrows : FailsOnly (Blames p) (s.selectRecords setup objectId { Query.default with search }) :=
    (s.selectRecords_blames objectId _).mono fun _ he hover =>
      have ⟨_, hq, _⟩ := he hover
      absurd hq List.not_mem_nil
  exact (requireList_blames s listId).bind fun _ => (FailsOnly.require (by simp)).bind fun _ =>
    hrows.bind fun _ => .ok _

theorem forwardReferences_blames {p : Prop} (objectId id : Id) :
    FailsOnly (Blames p) (s.forwardReferences objectId id) :=
  (requireRecord_blames s id objectId).bind fun _ => .ok _

end Store

/-- A call that leads out of the calendar was given what does. -/
theorem ofCall_blames (s : Store) (setup : Setup) (stamp : Stamp) (call : Call) :
    Session.MayFail s (Session.ofCall setup stamp call)
      (Blames (SomeOverflows (s.given call))) := by
  cases call with
  | objectNamed | object | objects | attributes | anAttribute | record | related | list
  | listNamed | lists | entry => exact .tell
  | createObject => exact .answering Session.createObject_blames
  | updateObject => exact .answering Session.updateObject_blames
  | deleteObject => exact .silently Session.deleteObject_blames
  | createAttribute => exact .answering Session.createAttribute_blames
  | updateAttribute => exact .answering Session.updateAttribute_blames
  | deleteAttribute => exact .silently Session.deleteAttribute_blames
  | addOption => exact .answering Session.addOption_blames
  | addStatus => exact .answering Session.addStatus_blames
  | removeOption => exact .silently Session.removeOption_blames
  | removeStatus => exact .silently Session.removeStatus_blames
  | createRecord => exact .answering Session.createRecord_blames
  | updateRecord => exact .answering Session.updateRecord_blames
  | assertRecord => exact .answering Session.assertRecord_blames
  | deleteRecord => exact .silently Session.deleteRecord_blames
  | forward => exact .answering (.lookOnly (s.forwardReferences_blames _ _))
  | listRecords => exact .answering (.lookOnly (s.listRecords_blames _ _))
  | reorder => exact .silently Session.reorder_blames
  | createList => exact .answering Session.createList_blames
  | updateList => exact .answering Session.updateList_blames
  | deleteList => exact .silently Session.deleteList_blames
  | addEntry => exact .answering Session.addEntry_blames
  | removeEntry => exact .silently Session.removeEntry_blames
  | listEntries => exact .answering (.lookOnly (s.listEntries_blames _ _))
  | available => exact .answering (.lookOnly (s.availableRecords_blames _ _ _))
  | updateEntry id values actor =>
    refine .answering (Session.updateEntry_blames.mono fun _ he hover => ?_)
    obtain ⟨entry, hentry, hitems⟩ := he hover
    simpa only [Store.given, hentry] using hitems

/-- Where the calendar is left. A member or an operand does so just if it is for a date attribute
and is a timestamp after the last day; a value, if that befalls the first of its items that fails; a
condition, if that befalls the first of its operands that fails, and nothing else is wrong with it;
a filter, if that befalls the first of its conditions that fails; sorts never do, and a search has
no way to fail; and a call of a store only if such a text is among what it gives to attributes. -/
theorem overflows_iff (a : Attribute) (raw : Json) (unknown : UnknownPolicy)
    (attributes : List Attribute) (c : Condition) (filter : Option Filter) (sorts : List SortSpec)
    (s : Store) (setup : Setup) (stamp : Stamp) (call : Call) :
    (encodeMember a raw = .error .calendarOverflow ↔ a.Overflows raw) ∧
    (encodeValue a raw = .error .calendarOverflow ↔
      FirstFails (encodeMember a) .calendarOverflow (a.items raw)) ∧
    (coerceOperand a raw = .error .calendarOverflow ↔ a.Overflows raw) ∧
    (compileCondition unknown attributes c = .error .calendarOverflow ↔
      ∃ a, (attributes.find? fun a => a.slug == c.slug) = some a ∧ c.Overflows a) ∧
    (compileFilter unknown attributes filter = .error .calendarOverflow ↔
      FirstFails (compileCondition unknown attributes) .calendarOverflow
        (Filter.conditions filter)) ∧
    compileSorts unknown attributes sorts ≠ .error .calendarOverflow ∧
    (s.perform setup stamp call = .error .calendarOverflow → SomeOverflows (s.given call)) := by
  refine ⟨encodeMember_eq_overflow_iff, encodeValue_eq_overflow_iff, coerceOperand_eq_overflow_iff,
    compileCondition_eq_overflow_iff, compileFilter_failsAs filter .calendarOverflow,
    ne_overflow (compileSorts_failsOnly sorts), fun h => ?_⟩
  rw [Store.perform] at h
  split at h
  · cases h
  · rename_i e t hrun
    cases h
    exact ofCall_blames s setup stamp call hrun rfl

/-! ### An evening in the west -/

def exampleDue : Attribute := { exampleAttribute with slug := "due", type := .date }

/-- The last second of the calendar, on a clock that is an hour behind. -/
def exampleLate : String := "9999-12-31T23:59:59-01:00"

theorem leavesCalendar_exampleLate : Calendar.LeavesCalendar exampleLate :=
  ⟨253402304399000000000, by decide +kernel, by decide⟩

theorem overflows_exampleLate : exampleDue.Overflows (.str exampleLate) :=
  ⟨rfl, exampleLate, rfl, leavesCalendar_exampleLate⟩

/-- Either a ghost is empty, or what is due is due before that. -/
def exampleLateFilter : Filter :=
  ⟨.or, [.condition ⟨"ghost", .isEmpty, .null⟩,
    .group .and [.condition ⟨"due", .less, .str exampleLate⟩]]⟩

/-- A condition deep down leads a filter out of the calendar, and nothing does so where there are no
attributes. -/
theorem overflows_of_late_filter :
    compileFilter .ignore [exampleDue] (some exampleLateFilter) = .error .calendarOverflow ∧
    ∀ setup stamp call, Store.empty.perform setup stamp call ≠ .error .calendarOverflow := by
  have hlate := overflows_iff exampleDue (.str exampleLate) .ignore [exampleDue]
    ⟨"due", .less, .str exampleLate⟩ (some exampleLateFilter) [] Store.empty
  constructor
  · obtain ⟨-, -, hoperand, hcondition, hfilter, -⟩ :=
      hlate ⟨0, 0, .ignore, []⟩ ⟨⟨0⟩, fun _ => default⟩ (.object default)
    refine hfilter.mpr ⟨[⟨"ghost", .isEmpty, .null⟩], ⟨"due", .less, .str exampleLate⟩, [], by cbv,
      ?_, hcondition.mpr ⟨exampleDue, by cbv, ?_⟩⟩
    · intro c hc
      cases List.mem_singleton.mp hc
      exact ⟨none, by cbv⟩
    · exact {
        legal := by decide
        given := fun _ => by decide
        single := fun _ _ harr => by cases harr
        first := ⟨[], .str exampleLate, [], rfl, List.forall_mem_nil _,
          hoperand.mpr overflows_exampleLate⟩ }
  · intro setup stamp call hover
    obtain ⟨-, -, -, -, -, -, hcall⟩ := hlate setup stamp call
    obtain ⟨q, hq, -⟩ := hcall hover
    have hnothing : Store.empty.given call = [] := by
      cases call <;> simp [Store.given, itemsGiven, itemsCompared, itemsNamed, Store.attributesOf,
        Store.entry?, Store.empty]
    rw [hnothing] at hq
    cases hq

/-- Read as a timestamp, the text is an instant; given for a date attribute, it is neither encoded
nor refused. -/
theorem encodeValue_late_eq_overflow :
    encodeValue exampleDue (.str exampleLate) = .error .calendarOverflow ∧
    Calendar.parseTimestamp exampleLate = .ok 253402304399000000 := by
  have hnanos : Calendar.rfc3339? (Text.trimChars exampleLate.toList) =
      some 253402304399000000000 := by decide +kernel
  refine ⟨?_, Calendar.parseTimestamp_of_rfc3339? hnanos⟩
  rw [encodeValue_of_single (by decide) (isBlank_of_overflows overflows_exampleLate)]
  exact encodeSingle_eq_overflow_iff.mpr overflows_exampleLate

end RecordStore
