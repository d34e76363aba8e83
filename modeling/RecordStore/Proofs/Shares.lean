import RecordStore.Proofs.Required

/-!
# Shares

The rows of all objects and lists stand in the same tables. The share of an object or of a list is
what belongs to it there: its own row, its attributes with their choices and values, and its records
or entries. Each statement writes rows of one share and leaves the others as they are.
-/

namespace RecordStore

namespace Store

/-! ### The share of a parent -/

def headsOf (s : Store) (p : Parent) : List AttributeHead :=
  s.attributes.filter fun a => a.parent == p

/-- An id is that of an attribute of a parent. -/
def belongs (s : Store) (p : Parent) (attributeId : Id) : Bool :=
  (s.headsOf p).any fun a => a.id == attributeId

/-- What belongs to a parent, as a store of its own. -/
def share (s : Store) (p : Parent) : Store where
  objects := s.objects.filter fun o => p == .object o.id
  attributes := s.headsOf p
  options := s.options.filter fun o => s.belongs p o.attributeId
  statuses := s.statuses.filter fun u => s.belongs p u.attributeId
  records := s.records.filter fun r => p == .object r.objectId
  lists := s.lists.filter fun l => p == .list l.id
  entries := s.entries.filter fun e => p == .list e.listId
  recordValues := s.recordValues.filter fun v => s.belongs p v.attributeId
  entryValues := s.entryValues.filter fun v => s.belongs p v.attributeId

/-- No attribute of a store has the id. -/
def Foreign (w : Store) (attributeId : Id) : Prop := ∀ a ∈ w.attributes, a.id ≠ attributeId

variable {s t u w : Store} {p q : Parent}

theorem mem_headsOf {a : AttributeHead} : a ∈ s.headsOf p ↔ a ∈ s.attributes ∧ a.parent = p := by
  simp [headsOf]

theorem belongs_iff {attributeId : Id} : s.belongs p attributeId = true ↔
    ∃ a ∈ s.attributes, a.parent = p ∧ a.id = attributeId := by
  simp [belongs, headsOf]

theorem values_share (table : ValueTable) :
    (s.share p).values table = (s.values table).filter fun v => s.belongs p v.attributeId := by
  cases table <;> rfl

theorem share_setValues (table : ValueTable) (rows : List ValueRow) :
    (s.setValues table rows).share p =
      (s.share p).setValues table (rows.filter fun v => s.belongs p v.attributeId) := by
  cases table <;> rfl

theorem belongs_eq_false (hu : u.share p = w) {attributeId : Id} (h : w.Foreign attributeId) :
    u.belongs p attributeId = false := by
  subst hu
  exact Bool.eq_false_iff.mpr fun hbelongs => by
    obtain ⟨a, ha, hid⟩ := List.any_eq_true.mp hbelongs
    exact h a ha (beq_iff_eq.mp hid)

/-- An attribute belongs to no other parent than its own. -/
theorem Indexed.foreign (hi : s.Indexed) {a : Attribute} (has : s.Has a) (hne : p ≠ a.parent) :
    (s.share p).Foreign a.id := by
  obtain ⟨b, hb, rfl⟩ := has
  intro c hc hid
  obtain ⟨hc, hparent⟩ := mem_headsOf.mp hc
  have heq : c = b := eq_of_pairwise_ne hi.attributeIds hc hb hid
  exact hne (heq ▸ hparent.symm)

/-! ### Rows of other shares -/

section

variable {α : Type} {rows : List α} {P Q : α → Bool}

theorem filter_filter_of_imp (h : ∀ r ∈ rows, P r = true → Q r = true) :
    (rows.filter Q).filter P = rows.filter P := by
  rw [List.filter_filter]
  refine List.filter_congr fun r hr => ?_
  cases hP : P r with
  | false => rfl
  | true => simp [h r hr hP]

/-- Rows that a change leaves as they are can be picked before or after it. -/
theorem filter_map_of_fixed {f : α → α} (hP : ∀ r ∈ rows, P (f r) = P r)
    (hf : ∀ r ∈ rows, P r = true → f r = r) : (rows.map f).filter P = rows.filter P := by
  have hpicked : rows.filter (P ∘ f) = rows.filter P := List.filter_congr hP
  have hfixed : (rows.filter P).map f = (rows.filter P).map id :=
    List.map_congr_left fun r hr => hf r (List.mem_filter.mp hr).1 (List.mem_filter.mp hr).2
  rw [List.filter_map, hpicked, hfixed, List.map_id]

end

/-- Rows of other attributes than the given one are the same. -/
def SameOff (attributeId : Id) (rows others : List ValueRow) : Prop :=
  others.filter (fun r => r.attributeId != attributeId) =
    rows.filter fun r => r.attributeId != attributeId

theorem sameOff_filter {attributeId : Id} (rows : List ValueRow) {P : ValueRow → Bool}
    (h : ∀ r : ValueRow, r.attributeId ≠ attributeId → P r = true) :
    SameOff attributeId rows (rows.filter P) :=
  filter_filter_of_imp fun r _ hr => h r (by simpa using hr)

theorem sameOff_map {attributeId : Id} (rows : List ValueRow) {f : ValueRow → ValueRow}
    (hid : ∀ r, (f r).attributeId = r.attributeId)
    (hf : ∀ r : ValueRow, r.attributeId ≠ attributeId → f r = r) :
    SameOff attributeId rows (rows.map f) :=
  filter_map_of_fixed (fun r _ => by rw [hid]) fun r _ hr => hf r (by simpa using hr)

theorem sameOff_upsertRow (row : ValueRow) (rows : List ValueRow) :
    SameOff row.attributeId rows (upsertRow row rows) := by
  have hkept : SameOff row.attributeId rows
      (rows.filter fun r => !r.isFor row.owner row.attributeId) :=
    sameOff_filter rows fun r hr => by simp [ValueRow.isFor, hr]
  rw [SameOff, upsertRow, List.filter_append, hkept]
  simp

theorem share_of_sameOff (hu : u.share p = w) {attributeId : Id} (hforeign : w.Foreign attributeId)
    {table : ValueTable} {rows : List ValueRow}
    (h : SameOff attributeId (u.values table) rows) : (u.setValues table rows).share p = w := by
  have himp : ∀ r : ValueRow, u.belongs p r.attributeId = true →
      (r.attributeId != attributeId) = true := by
    intro r hr
    rw [bne_iff_ne]
    rintro rfl
    rw [belongs_eq_false hu hforeign] at hr
    cases hr
  have hrows : rows.filter (fun r => u.belongs p r.attributeId) = (u.share p).values table := by
    rw [values_share, ← filter_filter_of_imp fun r _ => himp r, h,
      filter_filter_of_imp fun r _ => himp r]
  rw [share_setValues, hrows, setValues_values, hu]

/-! ### Other tables -/

section

variable (hu : u.share p = w)

include hu

theorem share_of_objects {rows : List Object} (h : rows.filter (fun o => p == .object o.id) =
    u.objects.filter fun o => p == .object o.id) : ({ u with objects := rows }).share p = w :=
  (congrArg (fun rows => { u.share p with objects := rows }) h).trans hu

theorem share_of_lists {rows : List RecordList} (h : rows.filter (fun l => p == .list l.id) =
    u.lists.filter fun l => p == .list l.id) : ({ u with lists := rows }).share p = w :=
  (congrArg (fun rows => { u.share p with lists := rows }) h).trans hu

theorem share_of_options {rows : List SelectOption}
    (h : rows.filter (fun o => u.belongs p o.attributeId) =
      u.options.filter fun o => u.belongs p o.attributeId) :
    ({ u with options := rows }).share p = w :=
  (congrArg (fun rows => { u.share p with options := rows }) h).trans hu

theorem share_of_statuses {rows : List Status}
    (h : rows.filter (fun v => u.belongs p v.attributeId) =
      u.statuses.filter fun v => u.belongs p v.attributeId) :
    ({ u with statuses := rows }).share p = w :=
  (congrArg (fun rows => { u.share p with statuses := rows }) h).trans hu

theorem share_of_records {rows : List Record}
    (h : rows.filter (fun r => p == .object r.objectId) =
      u.records.filter fun r => p == .object r.objectId) :
    ({ u with records := rows }).share p = w :=
  (congrArg (fun rows => { u.share p with records := rows }) h).trans hu

theorem share_of_entries {rows : List Entry} (h : rows.filter (fun e => p == .list e.listId) =
    u.entries.filter fun e => p == .list e.listId) : ({ u with entries := rows }).share p = w :=
  (congrArg (fun rows => { u.share p with entries := rows }) h).trans hu

/-- Other attributes come and go without a trace in a share. -/
theorem share_of_attributes {rows : List AttributeHead}
    (h : rows.filter (fun a => a.parent == p) = u.headsOf p) :
    ({ u with attributes := rows }).share p = w := by
  have hbelongs : ({ u with attributes := rows }).belongs p = u.belongs p := by
    funext attributeId
    rw [belongs, headsOf, h, belongs]
  rw [← hu, share, hbelongs, headsOf, h, share]

end

theorem filter_concat_of_not {α : Type} {rows : List α} {P : α → Bool} {row : α}
    (h : P row = false) : (rows ++ [row]).filter P = rows.filter P := by
  simp [h]

end Store

namespace Session

variable {w : Store} {p : Parent} {table : ValueTable}

/-! ### Statements on other shares -/

theorem share_upsertValue {row : ValueRow} (h : w.Foreign row.attributeId) :
    Keeps (fun u => u.share p = w) (upsertValue table row) :=
  .write fun _ _ hu => Store.share_of_sameOff hu h (Store.sameOff_upsertRow row _)

theorem share_filterValues {attributeId : Id} {P : ValueRow → Bool} (h : w.Foreign attributeId)
    (hP : ∀ r : ValueRow, r.attributeId ≠ attributeId → P r = true) :
    Keeps (fun u => u.share p = w)
      (modify fun u => u.setValues table ((u.values table).filter P)) :=
  .modify fun _ hu => Store.share_of_sameOff hu h (Store.sameOff_filter _ hP)

theorem share_deleteValue {owner attributeId : Id} (h : w.Foreign attributeId) :
    Keeps (fun u => u.share p = w) (deleteValue table owner attributeId) :=
  share_filterValues h fun r hr => by simp [ValueRow.isFor, hr]

theorem share_storeValues {owner : Id} {sets : List (Attribute × Cell)}
    (h : ∀ x ∈ sets, w.Foreign x.1.id) :
    Keeps (fun u => u.share p = w) (storeValues table owner sets) := by
  induction sets with
  | nil => exact .pure ()
  | cons x rest ih =>
    obtain ⟨hhere, hrest⟩ := List.forall_mem_cons.mp h
    refine .bind ?_ fun _ => ih hrest
    exact .liftM fun _ => .get fun _ => .liftM fun _ => share_upsertValue hhere

theorem share_clearValues {owner : Id} {clears : List Attribute}
    (h : ∀ a ∈ clears, w.Foreign a.id) :
    Keeps (fun u => u.share p = w) (clearValues table owner clears) := by
  induction clears with
  | nil => exact .pure ()
  | cons a rest ih =>
    obtain ⟨hhere, hrest⟩ := List.forall_mem_cons.mp h
    exact .bind (share_deleteValue hhere) fun _ => ih hrest

theorem share_applyValues {owner : Id} {prepared : Prepared}
    (hsets : ∀ x ∈ prepared.sets, w.Foreign x.1.id)
    (hclears : ∀ a ∈ prepared.clears, w.Foreign a.id) :
    Keeps (fun u => u.share p = w) (applyValues table owner prepared) :=
  .bind (share_storeValues hsets) fun _ => share_clearValues hclears

theorem share_dropMembers {a : Attribute} (h : w.Foreign a.id) (member : Json)
    (rows : List ValueRow) :
    Keeps (fun u => u.share p = w) (dropMembers table a member rows) := by
  have hdrop : ∀ owner members, Keeps (fun u => u.share p = w)
      (dropMember table a member owner members) := by
    intro owner members
    rw [dropMember]
    split
    · exact share_deleteValue h
    · exact .liftM fun _ => share_upsertValue h
  induction rows with
  | nil => exact .pure ()
  | cons row rest ih =>
    refine .bind ?_ fun _ => ih
    rw [dropMemberOf]
    split
    · split
      · exact hdrop row.owner _
      · exact .pure ()
    · exact .pure ()

theorem share_detachChoice {a : Attribute} (h : w.Foreign a.id) (choice : Id) :
    Keeps (fun u => u.share p = w) (detachChoice a choice) := by
  rw [detachChoice]
  split
  · exact .get fun _ => share_dropMembers h _ _
  · exact share_filterValues h fun r hr => by simp [hr]

theorem share_insertOption {attributeId : Id} (h : w.Foreign attributeId) (id : Id) (place : Int32)
    (new : NewOption) : Keeps (fun u => u.share p = w) (insertOption attributeId id place new) := by
  refine .liftM fun title => .bind (.write fun u _ hu => ?_) fun _ => .pure _
  exact Store.share_of_options hu (Store.filter_concat_of_not (Store.belongs_eq_false hu h))

theorem share_insertStatus {attributeId : Id} (h : w.Foreign attributeId) (id : Id) (place : Int32)
    (new : NewStatus) : Keeps (fun u => u.share p = w) (insertStatus attributeId id place new) := by
  refine .liftM fun title => .bind (.write fun u _ hu => ?_) fun _ => .pure _
  exact Store.share_of_statuses hu (Store.filter_concat_of_not (Store.belongs_eq_false hu h))

theorem share_insertOptions {attributeId : Id} (h : w.Foreign attributeId) (setup : Setup)
    (stamp : Stamp) (place : Nat) (new : List NewOption) :
    Keeps (fun u => u.share p = w) (insertOptions setup stamp attributeId place new) := by
  induction new generalizing place with
  | nil => exact .pure _
  | cons o rest ih =>
    refine .bind (share_insertOption h _ _ o) fun option => .liftM fun _ => ?_
    exact .bind (ih (place + 1)) fun _ => .pure _

theorem share_insertStatuses {attributeId : Id} (h : w.Foreign attributeId) (setup : Setup)
    (stamp : Stamp) (place : Nat) (new : List NewStatus) :
    Keeps (fun u => u.share p = w) (insertStatuses setup stamp attributeId place new) := by
  induction new generalizing place with
  | nil => exact .pure _
  | cons v rest ih =>
    refine .bind (share_insertStatus h _ _ v) fun status => .liftM fun _ => ?_
    exact .bind (ih (place + 1)) fun _ => .pure _

/-- Records that belong to another share may change, but not whose they are. -/
theorem share_mapRecords {f : Record → Record} (hf : ∀ r, (f r).objectId = r.objectId)
    (hfixed : ∀ r ∈ w.records, f r = r) :
    Keeps (fun u => u.share p = w) (modify fun u => { u with records := u.records.map f }) := by
  refine .modify fun u hu => Store.share_of_records hu ?_
  refine Store.filter_map_of_fixed (fun r _ => by rw [hf]) fun r hr hmine => ?_
  have hmem : r ∈ (u.share p).records := List.mem_filter.mpr ⟨hr, hmine⟩
  exact hfixed r (hu ▸ hmem)

theorem share_mapEntries {f : Entry → Entry} (hf : ∀ e, (f e).listId = e.listId)
    (hfixed : ∀ e ∈ w.entries, f e = e) :
    Keeps (fun u => u.share p = w) (modify fun u => { u with entries := u.entries.map f }) := by
  refine .modify fun u hu => Store.share_of_entries hu ?_
  refine Store.filter_map_of_fixed (fun e _ => by rw [hf]) fun e he hmine => ?_
  have hmem : e ∈ (u.share p).entries := List.mem_filter.mpr ⟨he, hmine⟩
  exact hfixed e (hu ▸ hmem)

theorem share_touchRecord {id : Id} (h : ∀ r ∈ w.records, r.id ≠ id) (now : Timestamp) :
    Keeps (fun u => u.share p = w) (touchRecord id now) :=
  share_mapRecords (fun r => by split <;> rfl) fun r hr => if_neg (h r hr)

theorem share_touchEntry {id : Id} (h : ∀ e ∈ w.entries, e.id ≠ id) (now : Timestamp) :
    Keeps (fun u => u.share p = w) (touchEntry id now) :=
  share_mapEntries (fun e => by split <;> rfl) fun e he => if_neg (h e he)

theorem share_placeRecords {ids : List Id} (h : ∀ r ∈ w.records, r.id ∉ ids) (place : Nat) :
    Keeps (fun u => u.share p = w) (placeRecords place ids) := by
  induction ids generalizing place with
  | nil => exact .pure ()
  | cons id rest ih =>
    refine .bind (share_mapRecords (fun r => by split <;> rfl) fun r hr => if_neg ?_) fun _ =>
      ih (fun r hr hrest => h r hr (List.mem_cons_of_mem _ hrest)) (place + 1)
    exact fun hid => h r hr (hid ▸ List.mem_cons_self)

end Session

end RecordStore
