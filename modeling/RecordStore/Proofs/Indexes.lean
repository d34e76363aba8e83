import RecordStore.Proofs.Lookups
import RecordStore.Proofs.Sessions

/-!
# Unique indexes

No two rows of a table share what a unique index holds. Each statement is refused that would break
one, so the statements on values keep the indexes whatever they are used for.
-/

namespace RecordStore

/-- Any two rows of a table are apart. -/
structure Store.Indexed (s : Store) : Prop where
  objects : s.objects.Pairwise Object.Apart
  attributes : s.attributes.Pairwise AttributeHead.Apart
  options : s.options.Pairwise SelectOption.Apart
  statuses : s.statuses.Pairwise Status.Apart
  records : s.records.Pairwise Record.Apart
  lists : s.lists.Pairwise RecordList.Apart
  entries : s.entries.Pairwise Entry.Apart
  values : ∀ table, (s.values table).Pairwise ValueRow.Apart

/-! ### Tables -/

theorem pairwise_concat {α : Type} {R : α → α → Prop} {rows : List α} {row : α}
    (h : rows.Pairwise R) (hrow : ∀ r ∈ rows, R r row) : (rows ++ [row]).Pairwise R := by
  rw [List.pairwise_append]
  refine ⟨h, List.pairwise_singleton R row, ?_⟩
  intro r hr q hq
  rw [List.mem_singleton.mp hq]
  exact hrow r hr

instance : Std.Symm AttributeHead.Apart where
  symm _ _ h := ⟨h.1.symm, fun heq => h.2 ⟨heq.1.symm, heq.2.symm⟩⟩

instance : Std.Symm ValueRow.Apart where
  symm r q h hid := by
    obtain ⟨howner, hkey⟩ := h hid.symm
    exact ⟨fun ho => howner ho.symm, fun hk => hk.trans (hkey hk.symm)⟩

theorem pairwise_upsertRow {row : ValueRow} {rows : List ValueRow}
    (h : rows.Pairwise ValueRow.Apart)
    (hfree : keyTaken rows row.owner row.attributeId row.uniqueKey = false) :
    (upsertRow row rows).Pairwise ValueRow.Apart := by
  refine pairwise_concat (h.filter _) ?_
  intro r hr hid
  rw [List.mem_filter] at hr
  obtain ⟨hr, hother⟩ := hr
  have howner : r.owner ≠ row.owner := by
    intro ho
    simp [ValueRow.isFor, ho, hid] at hother
  refine ⟨howner, fun hkey => ?_⟩
  cases hk : r.uniqueKey with
  | none => rfl
  | some key =>
    have htaken : keyTaken rows row.owner row.attributeId row.uniqueKey = true := by
      simp only [keyTaken, Bool.and_eq_true, List.any_eq_true]
      refine ⟨by simp [← hkey, hk], r, hr, ?_⟩
      simp [hid, hkey, howner]
    rw [htaken] at hfree
    cases hfree

theorem pairwise_keyRow {owner attributeId : Id} {key : Option String} {rows : List ValueRow}
    (h : rows.Pairwise ValueRow.Apart) (hfree : keyTaken rows owner attributeId key = false) :
    (keyRow owner attributeId key rows).Pairwise ValueRow.Apart := by
  have hkeys : ∀ r ∈ rows, r.attributeId = attributeId → r.owner ≠ owner →
      r.uniqueKey = key → key = none := by
    intro r hr hid howner hkey
    cases hk : key with
    | none => rfl
    | some k =>
      have htaken : keyTaken rows owner attributeId key = true := by
        simp only [keyTaken, Bool.and_eq_true, List.any_eq_true]
        exact ⟨by simp [hk], r, hr, by simp [hid, hkey, howner]⟩
      rw [htaken] at hfree
      cases hfree
  rw [keyRow, List.pairwise_map]
  refine h.imp_of_mem ?_
  intro r q hr hq hrq
  by_cases hrf : r.isFor owner attributeId = true <;>
    by_cases hqf : q.isFor owner attributeId = true
  · obtain ⟨hro, hra⟩ := ValueRow.isFor_iff.mp hrf
    obtain ⟨hqo, hqa⟩ := ValueRow.isFor_iff.mp hqf
    exact absurd (hro.trans hqo.symm) (hrq (hra.trans hqa.symm)).1
  · obtain ⟨hro, hra⟩ := ValueRow.isFor_iff.mp hrf
    simp only [hrf, hqf]
    intro hid
    have howner := (hrq hid).1
    exact ⟨howner, fun hk => hkeys q hq (hid.symm.trans hra) (fun ho => howner (hro.trans ho.symm))
      hk.symm⟩
  · obtain ⟨hqo, hqa⟩ := ValueRow.isFor_iff.mp hqf
    simp only [hrf, hqf]
    intro hid
    have howner := (hrq hid).1
    exact ⟨howner, fun hk => hk.trans
      (hkeys r hr (hid.trans hqa) (fun ho => howner (ho.trans hqo.symm)) hk)⟩
  · simp only [hrf, hqf]
    exact hrq

namespace Store.Indexed

variable {s : Store}

theorem objectIds (h : s.Indexed) : s.objects.Pairwise fun o p => o.id ≠ p.id :=
  h.objects.imp And.left

theorem attributeIds (h : s.Indexed) : s.attributes.Pairwise fun a b => a.id ≠ b.id :=
  h.attributes.imp And.left

theorem listIds (h : s.Indexed) : s.lists.Pairwise fun l m => l.id ≠ m.id := h.lists.imp And.left

theorem entryIds (h : s.Indexed) : s.entries.Pairwise fun e f => e.id ≠ f.id :=
  h.entries.imp And.left

theorem valueKeys (h : s.Indexed) (table : ValueTable) :
    (s.values table).Pairwise fun r q => (r.attributeId, r.owner) ≠ (q.attributeId, q.owner) :=
  (h.values table).imp fun hrq heq => (hrq (Prod.ext_iff.mp heq).1).1 (Prod.ext_iff.mp heq).2

theorem setValues {table : ValueTable} {rows : List ValueRow} (h : s.Indexed)
    (hrows : rows.Pairwise ValueRow.Apart) : (s.setValues table rows).Indexed := by
  refine ⟨by simpa using h.objects, by simpa using h.attributes, by simpa using h.options,
    by simpa using h.statuses, by simpa using h.records, by simpa using h.lists,
    by simpa using h.entries, ?_⟩
  intro other
  by_cases hother : other = table
  · rw [hother, Store.values_setValues]
    exact hrows
  · rw [Store.values_setValues_of_ne s table rows hother]
    exact h.values other

end Store.Indexed

namespace Session

open Store (Indexed)

/-! ### Statements on values -/

theorem indexed_upsertValue (table : ValueTable) (row : ValueRow) :
    Keeps Indexed (upsertValue table row) :=
  .write fun _ hfree h => h.setValues (pairwise_upsertRow (h.values table) hfree)

theorem indexed_updateKey (table : ValueTable) (owner attributeId : Id) (key : String) :
    Keeps Indexed (updateKey table owner attributeId key) :=
  .write fun _ hfree h => h.setValues (pairwise_keyRow (h.values table) hfree)

theorem indexed_clearKeys (table : ValueTable) (attributeId : Id) :
    Keeps Indexed (clearKeys table attributeId) := by
  refine .modify fun s h => h.setValues ((h.values table).map _ fun r q hrq => ?_)
  split
  · split
    · exact fun hid => ⟨(hrq hid).1, fun _ => rfl⟩
    · exact fun hid => ⟨(hrq hid).1, fun _ => rfl⟩
  · rename_i hr
    split
    · rename_i hq
      exact fun hid => absurd (hid.trans hq) hr
    · exact hrq

theorem indexed_filterValues (table : ValueTable) (p : ValueRow → Bool) :
    Keeps Indexed (modify fun s => s.setValues table ((s.values table).filter p)) :=
  .modify fun _ h => h.setValues ((h.values table).filter p)

/-! ### Keys and sets -/

theorem indexed_rekeyRows (table : ValueTable) (a : Attribute) (seen : List String)
    (rows : List ValueRow) : Keeps Indexed (rekeyRows table a seen rows) := by
  induction rows generalizing seen with
  | nil => exact .pure ()
  | cons row rest ih =>
    rw [rekeyRows]
    cases row.read? a.toAttributeHead with
    | none => exact ih seen
    | some cell =>
      refine .liftM fun key => .liftM fun _ => ?_
      exact .bind (indexed_updateKey table row.owner a.id key) fun _ => ih (key :: seen)

theorem indexed_rekey (table : ValueTable) (a : Attribute) : Keeps Indexed (rekey table a) := by
  rw [rekey]
  split
  · exact .get fun s => indexed_rekeyRows table a [] _
  · exact indexed_clearKeys table a.id

theorem indexed_replaceAttribute (current changed : Attribute) :
    Keeps Indexed (replaceAttribute current changed) := by
  refine .get fun s => .liftM fun _ => .bind (.write fun _ hapart h => ?_) fun _ => ?_
  · exact { h with attributes := hapart }
  · split
    · exact indexed_rekey _ changed
    · exact .pure ()

theorem indexed_dropMember (table : ValueTable) (a : Attribute) (member : Json) (owner : Id)
    (members : List Json) : Keeps Indexed (dropMember table a member owner members) := by
  rw [dropMember]
  split
  · exact indexed_filterValues table _
  · exact .liftM fun _ => indexed_upsertValue table _

theorem indexed_dropMemberOf (table : ValueTable) (a : Attribute) (member : Json)
    (row : ValueRow) : Keeps Indexed (dropMemberOf table a member row) := by
  rw [dropMemberOf]
  split
  · split
    · exact indexed_dropMember table a member row.owner _
    · exact .pure ()
  · exact .pure ()

theorem indexed_dropMembers (table : ValueTable) (a : Attribute) (member : Json)
    (rows : List ValueRow) : Keeps Indexed (dropMembers table a member rows) := by
  induction rows with
  | nil => exact .pure ()
  | cons row rest ih => exact .bind (indexed_dropMemberOf table a member row) fun _ => ih

theorem indexed_detachChoice (a : Attribute) (choice : Id) :
    Keeps Indexed (detachChoice a choice) := by
  rw [detachChoice]
  split
  · exact .get fun s => indexed_dropMembers _ a _ _
  · exact indexed_filterValues _ _

end Session

end RecordStore
