import RecordStore.Proofs.Shares

/-!
# Confinement

A call is about one object or one list, and leaves the shares of all others as they are. With an
object its lists may go, and with a record its entries; nothing else reaches from one share into
another.

Main statement: `Store.share_after`.
-/

namespace RecordStore

namespace Store

variable {s : Store}

/-! ### What a call is about -/

def parentOf? (s : Store) (attributeId : Id) : Option Parent :=
  (s.attribute? attributeId).map (·.parent)

theorem parentOf?_eq_some {id : Id} {a : Attribute} (h : s.requireAttribute id = .ok a) :
    s.parentOf? id = some a.parent := by
  rw [parentOf?, requireAttribute_eq_ok_iff.mp h, Option.map_some]

theorem parentOf?_of_requireChoices {id : Id} {type : ValueType} {a : Attribute}
    (h : s.requireChoices id type = .ok a) : s.parentOf? id = some a.parent := by
  obtain ⟨b, hb, h⟩ := bind_eq_ok_iff.mp h
  obtain ⟨_, -, h⟩ := bind_eq_ok_iff.mp h
  cases h
  exact parentOf?_eq_some hb

end Store

namespace Session

variable {s : Store} {p q : Parent} {new : NewAttribute}

/-! ### Catalog calls -/

theorem share_createObject (hp : s.hasParent p = true) (stamp : Stamp) (new : NewObject) :
    Yields s (createObject stamp new) fun _ t => t.share p = s.share p := by
  refine .liftM fun _ _ => .liftM fun _ _ => .liftM fun _ _ => .get (.liftM fun _ _ => ?_)
  refine .bind (.write fun apart => .pure ?_)
  refine Store.share_of_objects rfl (Store.filter_concat_of_not (beq_eq_false_iff_ne.mpr ?_))
  rintro rfl
  obtain ⟨o, ho, hid⟩ := Store.hasParent_object_iff.mp hp
  exact (apart o ho).1 hid

theorem share_updateObject {id : Id} (hne : p ≠ .object id) (changes : ObjectChanges) :
    Yields s (updateObject id changes) fun _ t => t.share p = s.share p := by
  refine .look fun current hcurrent => .liftM fun _ _ => .liftM fun _ _ => ?_
  refine .bind (.modify (.pure (Store.share_of_objects rfl ?_)))
  have hid : current.id = id := (Store.mem_of_requireObject hcurrent).2
  refine Store.filter_map_of_fixed (fun o _ => by split <;> rfl) fun o _ hmine => if_neg ?_
  rintro heq
  exact hne (by rw [beq_iff_eq.mp hmine, heq, hid])

theorem share_createAttribute (hne : p ≠ new.parent) (setup : Setup) (stamp : Stamp) :
    Yields s (createAttribute setup stamp new) fun _ t => t.share p = s.share p := by
  refine .liftM fun _ _ => .liftM fun title _ => .get (.liftM fun _ _ => .liftM fun _ _ => ?_)
  refine .liftM fun place _ => .transaction (.bind (.write fun apart => .liftM fun _ _ => .bind ?_))
  have hforeign : (s.share p).Foreign (stamp.fresh 0) :=
    fun a ha => (apart a (Store.mem_headsOf.mp ha).1).1
  refine (share_insertOptions hforeign setup stamp 0 new.options _ ?_).mono fun options t ht =>
    .bind ((share_insertStatuses hforeign setup stamp 0 new.statuses t ht).mono fun _ _ hu =>
      .pure hu)
  refine Store.share_of_attributes rfl (Store.filter_concat_of_not (beq_eq_false_iff_ne.mpr ?_))
  exact hne.symm

theorem share_updateAttribute (hi : s.Indexed) {id : Id}
    (hne : ∀ q, s.parentOf? id = some q → p ≠ q) (changes : AttributeChanges) :
    Yields s (updateAttribute id changes) fun _ t => t.share p = s.share p := by
  refine .look fun current hcurrent => .look fun next hnext => .bind (.transaction ?_)
  have has := (Store.has_of_requireAttribute hcurrent).1
  have hforeign := hi.foreign has (hne _ (Store.parentOf?_eq_some hcurrent))
  have hid : next.id = current.id := id_of_changedAttribute hnext
  have hreplaced : (s.withReplaced next).share p = s.share p := by
    refine Store.share_of_attributes rfl (Store.filter_map_of_fixed (fun a _ => ?_) ?_)
    · rw [replaced]
      split <;> rfl
    · refine fun a ha hparent => if_neg ?_
      rw [hid]
      exact hforeign a (Store.mem_headsOf.mpr ⟨ha, beq_iff_eq.mp hparent⟩)
  refine (yields_replaceAttribute hi _ _).mono ?_
  rintro - t ⟨-, -, ht⟩
  split at ht
  · exact .pure (ht ▸ hreplaced)
  · rw [ht.1]
    rw [← hid] at hforeign
    refine .pure (Store.share_of_sameOff hreplaced hforeign ?_)
    rw [Store.values_withReplaced]
    exact Store.sameOff_map _ (by simp) fun r hr => r.rekeyed_of_ne _ hr

theorem share_addOption (hi : s.Indexed) {id : Id} (hne : ∀ q, s.parentOf? id = some q → p ≠ q)
    (stamp : Stamp) (new : NewOption) :
    Yields s (addOption stamp id new) fun _ t => t.share p = s.share p := by
  refine .look fun a ha => ?_
  obtain ⟨has, hid, -⟩ := requireChoices_eq_ok ha
  have hforeign := hi.foreign has (hne _ (Store.parentOf?_of_requireChoices ha))
  exact .liftM fun place _ => share_insertOption (hid ▸ hforeign) _ place new s rfl

theorem share_addStatus (hi : s.Indexed) {id : Id} (hne : ∀ q, s.parentOf? id = some q → p ≠ q)
    (stamp : Stamp) (new : NewStatus) :
    Yields s (addStatus stamp id new) fun _ t => t.share p = s.share p := by
  refine .look fun a ha => ?_
  obtain ⟨has, hid, -⟩ := requireChoices_eq_ok ha
  have hforeign := hi.foreign has (hne _ (Store.parentOf?_of_requireChoices ha))
  exact .liftM fun place _ => share_insertStatus (hid ▸ hforeign) _ place new s rfl

theorem share_removeOption (hi : s.Indexed) {id : Id}
    (hne : ∀ o, s.requireOption id = .ok o → ∀ q, s.parentOf? o.attributeId = some q → p ≠ q) :
    Yields s (removeOption id) fun _ t => t.share p = s.share p := by
  refine .look fun option hoption => .look fun a ha => .transaction (.bind (.modify ?_))
  obtain ⟨has, hid, -⟩ := requireChoices_eq_ok ha
  have hforeign := hi.foreign has (hne _ hoption _ (Store.parentOf?_of_requireChoices ha))
  obtain ⟨hmem, rfl⟩ := mem_of_requireOption hoption
  refine share_detachChoice hforeign option.id _ (Store.share_of_options rfl ?_)
  refine Store.filter_filter_of_imp fun o ho hmine => bne_iff_ne.mpr fun heq => ?_
  have hsame : o = option := eq_of_pairwise_ne hi.options ho hmem heq
  rw [hsame, ← hid, Store.belongs_eq_false rfl hforeign] at hmine
  cases hmine

theorem share_removeStatus (hi : s.Indexed) {id : Id}
    (hne : ∀ v, s.requireStatus id = .ok v → ∀ q, s.parentOf? v.attributeId = some q → p ≠ q) :
    Yields s (removeStatus id) fun _ t => t.share p = s.share p := by
  refine .look fun status hstatus => .look fun a ha => .transaction (.bind (.modify ?_))
  obtain ⟨has, hid, -⟩ := requireChoices_eq_ok ha
  have hforeign := hi.foreign has (hne _ hstatus _ (Store.parentOf?_of_requireChoices ha))
  obtain ⟨hmem, rfl⟩ := mem_of_requireStatus hstatus
  refine share_detachChoice hforeign status.id _ (Store.share_of_statuses rfl ?_)
  refine Store.filter_filter_of_imp fun v hv hmine => bne_iff_ne.mpr fun heq => ?_
  have hsame : v = status := eq_of_pairwise_ne hi.statuses hv hmem heq
  rw [hsame, ← hid, Store.belongs_eq_false rfl hforeign] at hmine
  cases hmine

/-! ### Calls on records -/

theorem foreign_of_prepareValues (hi : s.Indexed) (hne : p ≠ q) {given : List (String × Json)}
    {mode : WriteMode} {prepared : Prepared}
    (h : prepareValues (s.attributesOf q) given mode = .ok prepared) :
    (∀ x ∈ prepared.sets, (s.share p).Foreign x.1.id) ∧
      ∀ a ∈ prepared.clears, (s.share p).Foreign a.id := by
  have hforeign : ∀ a ∈ s.attributesOf q, (s.share p).Foreign a.id := by
    intro a ha
    obtain ⟨has, hparent⟩ := Store.has_of_mem_attributesOf ha
    exact hi.foreign has (hparent ▸ hne)
  refine ⟨fun x hx => hforeign _ (encoded_of_prepareValues h x hx).1, fun a ha => ?_⟩
  cases mode with
  | create =>
    rw [(exists_set_of_prepareValues h).1] at ha
    cases ha
  | update => exact hforeign a (clears_of_prepareValues h a ha).1

theorem share_createRecord (hi : s.Indexed) {new : NewRecord} (hne : p ≠ .object new.objectId)
    (stamp : Stamp) : Yields s (createRecord stamp new) fun _ t => t.share p = s.share p := by
  refine .look fun _ _ => .get (.liftM fun prepared hprepared => ?_)
  refine .bind (.transaction (.bind (.write fun _ => ?_)))
  obtain ⟨hsets, hclears⟩ := foreign_of_prepareValues hi hne hprepared
  refine (share_applyValues hsets hclears _ ?_).mono fun _ t ht => .lookOnly fun _ _ => ht
  exact Store.share_of_records rfl (Store.filter_concat_of_not (beq_eq_false_iff_ne.mpr hne))

theorem share_updateRecord (hi : s.Indexed) {changes : RecordChanges}
    (hne : p ≠ .object changes.objectId) (stamp : Stamp) :
    Yields s (updateRecord stamp changes) fun _ t => t.share p = s.share p := by
  refine .look fun r hr => .get (.liftM fun prepared hprepared => ?_)
  obtain ⟨hsets, hclears⟩ := foreign_of_prepareValues hi hne hprepared
  have hother : ∀ q ∈ (s.share p).records, q.id ≠ changes.recordId := by
    obtain ⟨hmem, hid, hobject⟩ := Store.mem_of_requireRecord hr
    intro q hq heq
    obtain ⟨hq, hmine⟩ := List.mem_filter.mp hq
    have hsame : q = r := eq_of_pairwise_ne hi.records hq hmem (heq.trans hid.symm)
    exact hne (by rw [beq_iff_eq.mp hmine, hsame, hobject])
  refine .bind (.transaction (.bind ((share_applyValues hsets hclears s rfl).mono ?_)))
  exact fun _ u hu => (share_touchRecord hother stamp.now u hu).mono fun _ t ht =>
    .lookOnly fun _ _ => ht

theorem share_assertRecord (hi : s.Indexed) {assertion : RecordAssertion}
    (hne : p ≠ .object assertion.objectId) (stamp : Stamp) :
    Yields s (assertRecord stamp assertion) fun _ t => t.share p = s.share p := by
  refine .look fun _ _ => .get (.liftM fun found _ => ?_)
  dsimp only
  split
  · exact share_updateRecord hi hne stamp
  · exact share_createRecord hi hne stamp

theorem share_reorder (hi : s.Indexed) {objectId : Id} (hne : p ≠ .object objectId)
    (ids : List Id) : Yields s (reorder objectId ids) fun _ t => t.share p = s.share p := by
  refine .look fun _ _ => .get (.liftM fun _ _ => .liftM fun _ hids => .transaction ?_)
  refine share_placeRecords (fun r hr hid => ?_) 0 s rfl
  obtain ⟨hr, hmine⟩ := List.mem_filter.mp hr
  obtain ⟨q, hq, hqid⟩ := List.any_eq_true.mp (require_eq_ok_iff.mp hids r.id hid)
  obtain ⟨hq, hobject⟩ := List.mem_filter.mp hq
  have hsame : q = r := eq_of_pairwise_ne hi.records hq hr (beq_iff_eq.mp hqid)
  exact hne (by rw [beq_iff_eq.mp hmine, ← hsame, beq_iff_eq.mp hobject])

/-! ### Calls on lists -/

theorem share_createList (hp : s.hasParent p = true) (stamp : Stamp) (new : NewList) :
    Yields s (createList stamp new) fun _ t => t.share p = s.share p := by
  refine .liftM fun _ _ => .liftM fun _ _ => .look fun _ _ => .get (.liftM fun _ _ => ?_)
  refine .bind (.write fun apart => .pure ?_)
  refine Store.share_of_lists rfl (Store.filter_concat_of_not (beq_eq_false_iff_ne.mpr ?_))
  rintro rfl
  obtain ⟨l, hl, hid⟩ := Store.hasParent_list_iff.mp hp
  exact (apart l hl).1 hid

theorem share_updateList {id : Id} (hne : p ≠ .list id) (changes : ListChanges) :
    Yields s (updateList id changes) fun _ t => t.share p = s.share p := by
  refine .look fun current hcurrent => .liftM fun _ _ => ?_
  refine .bind (.modify (.pure (Store.share_of_lists rfl ?_)))
  have hid : current.id = id := (Store.mem_of_requireList hcurrent).2
  refine Store.filter_map_of_fixed (fun l _ => by split <;> rfl) fun l _ hmine => if_neg ?_
  rintro heq
  exact hne (by rw [beq_iff_eq.mp hmine, heq, hid])

theorem share_addEntry (hi : s.Indexed) {new : NewEntry} (hne : p ≠ .list new.listId)
    (stamp : Stamp) : Yields s (addEntry stamp new) fun _ t => t.share p = s.share p := by
  refine .look fun list hlist => .look fun _ _ => .get (.liftM fun _ _ => .liftM fun _ _ => ?_)
  refine .liftM fun prepared hprepared => .bind (.transaction (.bind (.write fun _ => ?_)))
  rw [← (Store.mem_of_requireList hlist).2] at hne
  obtain ⟨hsets, hclears⟩ := foreign_of_prepareValues hi hne hprepared
  refine (share_applyValues hsets hclears _ ?_).mono fun _ t ht => .lookOnly fun _ _ => ht
  exact Store.share_of_entries rfl (Store.filter_concat_of_not (beq_eq_false_iff_ne.mpr hne))

theorem share_updateEntry (hi : s.Indexed) {id : Id}
    (hne : ∀ e, s.entry? id = some e → p ≠ .list e.listId) (stamp : Stamp)
    (given : List (String × Json)) :
    Yields s (updateEntry stamp id given) fun _ t => t.share p = s.share p := by
  refine .look fun e he => .look fun list hlist => .get (.liftM fun prepared hprepared => ?_)
  have hne := hne e (Store.requireEntry_eq_ok_iff.mp he)
  have hid : list.id = e.listId := (Store.mem_of_requireList hlist).2
  obtain ⟨hsets, hclears⟩ := foreign_of_prepareValues hi (hid ▸ hne) hprepared
  have hother : ∀ f ∈ (s.share p).entries, f.id ≠ id := by
    obtain ⟨hmem, hid⟩ := Store.mem_of_requireEntry he
    intro f hf heq
    obtain ⟨hf, hmine⟩ := List.mem_filter.mp hf
    have hsame : f = e := eq_of_pairwise_ne hi.entryIds hf hmem (heq.trans hid.symm)
    exact hne (by rw [beq_iff_eq.mp hmine, hsame])
  refine .bind (.transaction (.bind ((share_applyValues hsets hclears s rfl).mono ?_)))
  exact fun _ u hu => (share_touchEntry hother stamp.now u hu).mono fun _ t ht =>
    .lookOnly fun _ _ => ht

end Session

/-! ### Removals -/

namespace Store

variable {s t : Store} {p q : Parent} {x : Removable}

/-- A parent is another, or a list of the other, which is an object. -/
def Within (s : Store) (p q : Parent) : Prop :=
  p = q ∨ ∃ l ∈ s.lists, p = .list l.id ∧ q = .object l.objectId

/-- Something of the share of a parent goes with what is removed. -/
def Meets (s : Store) (p : Parent) : Removable → Prop
  | .object id => s.Within p (.object id)
  | .list id => p = .list id
  | .attribute id => s.belongs p id = true
  | .record id => ∃ r ∈ s.records, r.id = id ∧ s.Within p (.object r.objectId)
  | .entry id => ∃ e ∈ s.entries, e.id = id ∧ p = .list e.listId

section

variable (hx : ¬ s.Meets p x)

include hx

theorem not_takesParent : ¬ x.TakesParent s p := by
  cases p with
  | object id =>
    rintro rfl
    exact hx (.inl rfl)
  | list id =>
    rintro ⟨l, hl, rfl, rfl | rfl⟩
    · exact hx rfl
    · exact hx (.inr ⟨l, hl, rfl, rfl⟩)

theorem not_takesHead {a : AttributeHead} (ha : a ∈ s.attributes) (hparent : a.parent = p) :
    ¬ x.TakesAttribute s a := by
  rintro (rfl | htakes)
  · exact hx (belongs_iff.mpr ⟨a, ha, hparent, rfl⟩)
  · exact not_takesParent hx (hparent ▸ htakes)

theorem not_takesAttributeOf_of_belongs (hi : s.Indexed) {id : Id}
    (hid : s.belongs p id = true) : ¬ x.TakesAttributeOf s id := by
  obtain ⟨a, ha, hparent, hid⟩ := belongs_iff.mp hid
  exact fun htakes => not_takesHead hx ha hparent (of_exists_key hi.attributeIds htakes ha hid)

theorem not_takesRecord_of_share {r : Record} (hr : r ∈ s.records) (hmine : p = .object r.objectId) :
    ¬ x.TakesRecord r := by
  rintro (rfl | rfl)
  · exact hx ⟨r, hr, rfl, .inl hmine⟩
  · exact hx (.inl hmine)

theorem not_takesEntry_of_share (hl : s.Linked) {e : Entry} (he : e ∈ s.entries)
    (hmine : p = .list e.listId) : ¬ x.TakesEntry s e := by
  rintro (rfl | rfl | htakes)
  · exact hx ⟨e, he, rfl, hmine⟩
  · obtain ⟨l, hlist, r, hr, hlid, hrid, hobject⟩ := hl.entries e he
    exact hx ⟨r, hr, hrid, .inr ⟨l, hlist, by rw [hmine, hlid], by rw [hobject]⟩⟩
  · have hparent := not_takesParent hx
    rw [hmine] at hparent
    exact hparent htakes

theorem not_takesValue_of_share (hs : s.Sound) (table : ValueTable) {v : ValueRow}
    (hv : v ∈ s.values table) (hmine : s.belongs p v.attributeId = true) :
    ¬ x.TakesValue s table v := by
  rintro (htakes | htakes)
  · exact not_takesAttributeOf_of_belongs hx hs.indexed hmine htakes
  obtain ⟨a, ha, hid, howns⟩ := hs.linked.values table v hv
  obtain ⟨b, hb, hparent, hbid⟩ := belongs_iff.mp hmine
  have hab : a = b := eq_of_pairwise_ne hs.indexed.attributeIds ha hb (hid.trans hbid.symm)
  rw [hab, hparent] at howns
  cases table with
  | records =>
    obtain ⟨r, hr, howner, hobject⟩ := howns
    exact not_takesRecord_of_share hx hr hobject (of_exists_key hs.indexed.records htakes hr howner)
  | entries =>
    obtain ⟨e, he, howner, hlist⟩ := howns
    exact not_takesEntry_of_share hx hs.linked he hlist
      (of_exists_key hs.indexed.entryIds htakes he howner)

/-- A share that does not meet what is removed stays as it is. -/
theorem share_without (hs : s.Sound) : (s.without x).share p = s.share p := by
  have hkept : ∀ {α : Type} {rows : List α} {mine : α → Bool} {gone : α → Prop}
      [DecidablePred gone], (∀ r ∈ rows, mine r = true → ¬ gone r) →
        (rows.filter fun r => ¬ gone r).filter mine = rows.filter mine :=
    fun h => filter_filter_of_imp fun r hr hmine => by simpa using h r hr hmine
  have hheads : (s.without x).headsOf p = s.headsOf p :=
    hkept fun a ha hmine => not_takesHead hx ha (beq_iff_eq.mp hmine)
  have hbelongs : (s.without x).belongs p = s.belongs p := by
    funext attributeId
    rw [belongs, hheads, belongs]
  have hobjects : (s.without x).objects.filter (fun o => p == .object o.id) =
      s.objects.filter fun o => p == .object o.id := by
    refine hkept fun o _ hmine => ?_
    rintro rfl
    exact hx (.inl (beq_iff_eq.mp hmine))
  have hlists : (s.without x).lists.filter (fun l => p == .list l.id) =
      s.lists.filter fun l => p == .list l.id := by
    refine hkept fun l hl hmine => ?_
    have hparent := not_takesParent hx
    rw [beq_iff_eq.mp hmine] at hparent
    exact fun htakes => hparent ⟨l, hl, rfl, htakes⟩
  have hoptions : (s.without x).options.filter (fun o => s.belongs p o.attributeId) =
      s.options.filter fun o => s.belongs p o.attributeId :=
    hkept fun o _ => not_takesAttributeOf_of_belongs hx hs.indexed
  have hstatuses : (s.without x).statuses.filter (fun u => s.belongs p u.attributeId) =
      s.statuses.filter fun u => s.belongs p u.attributeId :=
    hkept fun u _ => not_takesAttributeOf_of_belongs hx hs.indexed
  have hrecords : (s.without x).records.filter (fun r => p == .object r.objectId) =
      s.records.filter fun r => p == .object r.objectId :=
    hkept fun r hr hmine => not_takesRecord_of_share hx hr (beq_iff_eq.mp hmine)
  have hentries : (s.without x).entries.filter (fun e => p == .list e.listId) =
      s.entries.filter fun e => p == .list e.listId :=
    hkept fun e he hmine => not_takesEntry_of_share hx hs.linked he (beq_iff_eq.mp hmine)
  have hrecordValues : (s.without x).recordValues.filter (fun v => s.belongs p v.attributeId) =
      s.recordValues.filter fun v => s.belongs p v.attributeId :=
    hkept fun v hv => not_takesValue_of_share hx hs .records hv
  have hentryValues : (s.without x).entryValues.filter (fun v => s.belongs p v.attributeId) =
      s.entryValues.filter fun v => s.belongs p v.attributeId :=
    hkept fun v hv => not_takesValue_of_share hx hs .entries hv
  rw [share, hbelongs, hobjects, hheads, hoptions, hstatuses, hrecords, hlists, hentries,
    hrecordValues, hentryValues, share]

end

/-! ### All calls -/

/-- The parent that a call writes to, if it writes: an object or a list by itself, by one of its
attributes or their choices, or by its records or entries. A new object is none yet. -/
def target? (s : Store) : Call → Option Parent
  | .updateObject id _ | .deleteObject id => some (.object id)
  | .createAttribute new => some new.parent
  | .updateAttribute id _ | .deleteAttribute id | .addOption id _ | .addStatus id _ =>
    s.parentOf? id
  | .removeOption id => (s.options.find? fun o => o.id == id).bind fun o => s.parentOf? o.attributeId
  | .removeStatus id =>
    (s.statuses.find? fun u => u.id == id).bind fun u => s.parentOf? u.attributeId
  | .createRecord new => some (.object new.objectId)
  | .updateRecord changes => some (.object changes.objectId)
  | .assertRecord assertion => some (.object assertion.objectId)
  | .deleteRecord objectId _ | .reorder objectId _ => some (.object objectId)
  | .createList new => some (.object new.objectId)
  | .updateList id _ | .deleteList id => some (.list id)
  | .addEntry new => some (.list new.listId)
  | .removeEntry id | .updateEntry id _ _ => (s.entry? id).map fun e => .list e.listId
  | .createObject _ | .objectNamed .. | .object _ | .objects _ | .attributes _ | .anAttribute _
  | .record .. | .related _ | .forward .. | .listRecords .. | .list _ | .listNamed .. | .lists _
  | .entry _ | .listEntries .. | .available .. => none

/-- A removal does not meet the share of a parent that is not within what the call is about. -/
theorem not_meets (hi : s.Indexed) {setup : Setup} {stamp : Stamp} {call : Call}
    (hcall : call.removes? = some x) (hout : ∀ q, s.target? call = some q → ¬ s.Within p q) :
    Session.Yields s (Session.ofCall setup stamp call) fun _ _ => ¬ s.Meets p x := by
  cases call with
  | deleteObject id =>
    cases hcall
    exact fun _ _ _ => hout _ rfl
  | deleteList id =>
    cases hcall
    exact fun _ _ _ heq => hout _ rfl (.inl heq)
  | deleteAttribute id =>
    cases hcall
    refine Session.yields_silently (.look fun a ha _ _ _ hmeets => ?_)
    obtain ⟨b, hb, hparent, hbid⟩ := belongs_iff.mp hmeets
    obtain ⟨⟨c, hc, rfl⟩, hcid⟩ := has_of_requireAttribute ha
    have hcb : c = b := eq_of_pairwise_ne hi.attributeIds hc hb (hcid.trans hbid.symm)
    refine hout _ (parentOf?_eq_some ha) (.inl ?_)
    rw [parent_withChoices, hcb, hparent]
  | deleteRecord objectId id =>
    cases hcall
    refine Session.yields_silently (.look fun q hq _ _ _ hmeets => ?_)
    obtain ⟨hq, hqid, hobject⟩ := mem_of_requireRecord hq
    obtain ⟨r, hr, hrid, hwithin⟩ := hmeets
    have hrq : r = q := eq_of_pairwise_ne hi.records hr hq (hrid.trans hqid.symm)
    rw [hrq, hobject] at hwithin
    exact hout _ rfl hwithin
  | removeEntry id =>
    cases hcall
    refine Session.yields_silently (.look fun f hf _ _ _ hmeets => ?_)
    obtain ⟨hfmem, hfid⟩ := mem_of_requireEntry hf
    obtain ⟨e, he, heid, hmine⟩ := hmeets
    have hef : e = f := eq_of_pairwise_ne hi.entryIds he hfmem (heid.trans hfid.symm)
    refine hout (.list f.listId) ?_ (.inl (hef ▸ hmine))
    rw [target?, requireEntry_eq_ok_iff.mp hf, Option.map_some]
  | _ => cases hcall

end Store

namespace Session

variable {s : Store} {p : Parent}

/-- The calls that do not remove anything write to the share of what they are about. -/
theorem share_ofCall (hi : s.Indexed) (hp : s.hasParent p = true) (setup : Setup) (stamp : Stamp)
    {call : Call} (hcall : call.removes? = none)
    (hout : ∀ q, s.target? call = some q → ¬ s.Within p q) :
    Yields s (ofCall setup stamp call) fun _ t => t.share p = s.share p := by
  have hne : ∀ q, s.target? call = some q → p ≠ q := fun q hq heq => hout q hq (.inl heq)
  cases call with
  | objectNamed | object | objects | attributes | anAttribute | record | related | list
  | listNamed | lists | entry => exact .get (.pure rfl)
  | forward | listRecords | listEntries | available =>
    exact yields_answering _ (.lookOnly fun _ _ => rfl)
  | deleteObject | deleteAttribute | deleteRecord | deleteList | removeEntry => cases hcall
  | createObject new => exact yields_answering _ (share_createObject hp stamp new)
  | updateObject id changes => exact yields_answering _ (share_updateObject (hne _ rfl) changes)
  | createAttribute new =>
    exact yields_answering _ (share_createAttribute (hne _ rfl) setup stamp)
  | updateAttribute id changes => exact yields_answering _ (share_updateAttribute hi hne changes)
  | addOption id new => exact yields_answering _ (share_addOption hi hne stamp new)
  | addStatus id new => exact yields_answering _ (share_addStatus hi hne stamp new)
  | removeOption id =>
    refine yields_silently (share_removeOption hi fun o ho q hq => hne q ?_)
    rw [Store.target?, Store.requireOption_eq_ok_iff.mp ho, Option.bind_some, hq]
  | removeStatus id =>
    refine yields_silently (share_removeStatus hi fun u hu q hq => hne q ?_)
    rw [Store.target?, Store.requireStatus_eq_ok_iff.mp hu, Option.bind_some, hq]
  | createRecord new => exact yields_answering _ (share_createRecord hi (hne _ rfl) stamp)
  | updateRecord changes => exact yields_answering _ (share_updateRecord hi (hne _ rfl) stamp)
  | assertRecord assertion => exact yields_answering _ (share_assertRecord hi (hne _ rfl) stamp)
  | reorder objectId ids => exact yields_silently (share_reorder hi (hne _ rfl) ids)
  | createList new => exact yields_answering _ (share_createList hp stamp new)
  | updateList id changes => exact yields_answering _ (share_updateList (hne _ rfl) changes)
  | addEntry new => exact yields_answering _ (share_addEntry hi (hne _ rfl) stamp)
  | updateEntry id given =>
    refine yields_answering _ (share_updateEntry hi (fun e he => hne _ ?_) stamp given)
    rw [Store.target?, he, Option.map_some]

end Session

namespace Store

variable {s : Store} {p : Parent}

/-- After a call, the share of every parent that was there is as before, unless it is that of the
parent that the call is about, or of a list of that. -/
theorem share_after (h : s.Reachable) (hp : s.hasParent p = true) (setup : Setup) (stamp : Stamp)
    {call : Call} (hout : ∀ q, s.target? call = some q → ¬ s.Within p q) :
    (s.after setup stamp call).share p = s.share p := by
  have hs := h.sound
  rcases after_cases hs setup stamp call with ⟨answer, hperform, hrun⟩ | ⟨e, -, hsame⟩
  · cases hcall : call.removes? with
    | none => exact Session.share_ofCall hs.indexed hp setup stamp hcall hout hrun
    | some x =>
      rw [eq_without_of_perform h hcall hperform]
      exact share_without (not_meets hs.indexed hcall hout hrun) hs
  · rw [hsame]

end Store

end RecordStore
