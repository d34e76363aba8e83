import RecordStore.Proofs.Displays
import RecordStore.Proofs.Retyping

/-!
# Names

Objects have their slugs in a workspace, attributes in their parent, lists in their object. A slug
is checked where it is given and compared with those of its scope, so whatever is resolved by slug
is resolved to one item.

Main statement: `Store.named_of_reachable`.
-/

namespace RecordStore

/-! ### The shape of slugs -/

/-- A lower-case letter, then such letters, digits and underscores, at most 64 in all. -/
structure IsSlug (slug : String) : Prop where
  first : ∃ c rest, slug.toList = c :: rest ∧ 'a' ≤ c ∧ c ≤ 'z'
  all : ∀ c ∈ slug.toList, ('a' ≤ c ∧ c ≤ 'z') ∨ ('0' ≤ c ∧ c ≤ '9') ∨ c = '_'
  short : slug.length ≤ 64

theorem isSlugHead_iff {c : Char} : isSlugHead c = true ↔ 'a' ≤ c ∧ c ≤ 'z' := by
  simp [isSlugHead]

theorem isSlugTail_iff {c : Char} :
    isSlugTail c = true ↔ ('a' ≤ c ∧ c ≤ 'z') ∨ ('0' ≤ c ∧ c ≤ '9') ∨ c = '_' := by
  simp [isSlugTail, isSlugHead, Char.isDigit, Char.le_def, or_assoc]

/-- Text of single-byte characters has as many bytes as characters. -/
theorem utf8ByteSize_eq_length {s : String} (h : ∀ c ∈ s.toList, c.val ≤ 127) :
    s.utf8ByteSize = s.length := by
  have hlist : ∀ cs : List Char, (∀ c ∈ cs, c.val ≤ 127) → String.utf8Len cs = cs.length := by
    intro cs hcs
    induction cs with
    | nil => rfl
    | cons c rest ih =>
      obtain ⟨hc, hrest⟩ := List.forall_mem_cons.mp hcs
      rw [String.utf8Len_cons, ih hrest, Char.utf8Size_eq_one_iff.mpr hc, List.length_cons]
  rw [← String.ofList_toList (s := s), String.utf8ByteSize_ofList, hlist _ h,
    String.length_ofList]

theorem val_le_of_isSlugTail {c : Char} (h : isSlugTail c = true) : c.val ≤ 127 := by
  rcases isSlugTail_iff.mp h with ⟨-, hc⟩ | ⟨-, hc⟩ | rfl
  · exact UInt32.le_trans (Char.le_def.mp hc) (by decide)
  · exact UInt32.le_trans (Char.le_def.mp hc) (by decide)
  · decide

theorem checkSlug_eq_ok_iff {slug : String} : checkSlug slug = .ok () ↔ IsSlug slug := by
  rw [checkSlug]
  cases hchars : slug.toList with
  | nil =>
    refine ⟨fun h => (by cases h), fun h => ?_⟩
    obtain ⟨c, rest, hcons, -⟩ := h.first
    cases hchars.symm.trans hcons
  | cons c rest =>
    dsimp only
    by_cases hshape : (isSlugHead c && rest.all isSlugTail) = true
    · obtain ⟨hhead, htail⟩ := Bool.and_eq_true_iff.mp hshape
      have hall : ∀ d ∈ slug.toList, isSlugTail d = true := by
        rw [hchars]
        exact List.forall_mem_cons.mpr ⟨by simp [isSlugTail, hhead], List.all_eq_true.mp htail⟩
      rw [utf8ByteSize_eq_length fun d hd => val_le_of_isSlugTail (hall d hd), if_pos hshape]
      constructor
      · intro h
        refine ⟨⟨c, rest, hchars, isSlugHead_iff.mp hhead⟩,
          fun d hd => isSlugTail_iff.mp (hall d hd), ?_⟩
        by_contra hlong
        rw [if_pos (by omega)] at h
        cases h
      · intro h
        rw [if_neg (by have := h.short; omega)]
    · rw [if_neg hshape]
      refine ⟨fun h => ?_, fun h => absurd ?_ hshape⟩
      · split at h <;> cases h
      obtain ⟨d, others, hcons, hd⟩ := h.first
      cases hchars.symm.trans hcons
      refine Bool.and_eq_true_iff.mpr ⟨isSlugHead_iff.mpr hd, List.all_eq_true.mpr fun e he => ?_⟩
      exact isSlugTail_iff.mpr (h.all e (hchars ▸ List.mem_cons_of_mem _ he))

theorem IsSlug.ne_of_first {slug : String} (h : IsSlug slug) {name : String} {c : Char}
    (hname : name.toList.head? = some c) (hc : ¬ ('a' ≤ c ∧ c ≤ 'z')) : slug ≠ name := by
  rintro rfl
  obtain ⟨d, rest, hcons, hd⟩ := h.first
  rw [hcons, List.head?_cons, Option.some.injEq] at hname
  exact hc (hname ▸ hd)

namespace Store

variable {s : Store}

/-! ### Scopes -/

/-- Where a slug has to be the only one of its kind. An object and a list are different parents,
whatever their ids. -/
inductive NameScope where
  | objects (workspace : Id)
  | attributes (parent : Parent)
  | lists (objectId : Id)

/-- The slugs in a scope, with the ids of what they name. -/
def names (s : Store) : NameScope → List (Id × String)
  | .objects workspace =>
    (s.objects.filter fun o => o.workspace == workspace).map fun o => (o.id, o.slug)
  | .attributes parent =>
    (s.attributes.filter fun a => a.parent == parent).map fun a => (a.id, a.slug)
  | .lists objectId => (s.lists.filter fun l => l.objectId == objectId).map fun l => (l.id, l.slug)

/-- A slug is taken in a scope by another item than the given one. -/
def Taken (s : Store) (scope : NameScope) (item : Option Id) (slug : String) : Prop :=
  ∃ p ∈ s.names scope, p.2 = slug ∧ item ≠ some p.1

theorem pairwise_names {α β : Type} [DecidableEq β] {rows : List α} {id : α → Id} {place : α → β}
    {slug : α → String}
    (h : rows.Pairwise fun a b => id a ≠ id b ∧ ¬ (place a = place b ∧ slug a = slug b))
    (at' : β) :
    (((rows.filter fun a => place a == at').map fun a => (id a, slug a)).map Prod.snd).Nodup := by
  rw [List.map_map, List.Nodup, List.pairwise_map]
  refine (h.filter _).imp_of_mem fun {a b} ha hb hab heq => hab.2 ⟨?_, heq⟩
  have hap := beq_iff_eq.mp (List.mem_filter.mp ha).2
  exact hap.trans (beq_iff_eq.mp (List.mem_filter.mp hb).2).symm

theorem Indexed.nodup_names (h : s.Indexed) (scope : NameScope) :
    ((s.names scope).map Prod.snd).Nodup := by
  cases scope with
  | objects workspace => exact pairwise_names h.objects workspace
  | attributes parent => exact pairwise_names h.attributes parent
  | lists objectId => exact pairwise_names h.lists objectId

/-! ### Slugs that are checked -/

/-- Every slug in the tables has the shape of one. -/
structure WellNamed (s : Store) : Prop where
  objects : ∀ o ∈ s.objects, checkSlug o.slug = .ok ()
  attributes : ∀ a ∈ s.attributes, checkSlug a.slug = .ok ()
  lists : ∀ l ∈ s.lists, checkSlug l.slug = .ok ()

theorem wellNamed_empty : empty.WellNamed :=
  ⟨fun _ h => absurd h List.not_mem_nil, fun _ h => absurd h List.not_mem_nil,
    fun _ h => absurd h List.not_mem_nil⟩

theorem checkSlug_of_changedAttribute {current next : AttributeHead} {changes : AttributeChanges}
    (h : s.changedAttribute current changes = .ok next) (hcurrent : checkSlug current.slug = .ok ()) :
    checkSlug next.slug = .ok () := by
  obtain ⟨slug, title, hslug, -, -, rfl⟩ := changedAttribute_eq_ok h
  obtain ⟨hgiven, hasked⟩ := changedSlug_eq_ok hslug
  cases hslug' : changes.slug with
  | none =>
    rw [hslug'] at hgiven
    exact hgiven ▸ hcurrent
  | some given =>
    rw [hslug'] at hasked
    exact (hasked rfl).1

namespace WellNamed

theorem withReplaced (h : s.WellNamed) {next : AttributeHead}
    (hnext : checkSlug next.slug = .ok ()) : (s.withReplaced next).WellNamed := by
  refine { h with attributes := fun a ha => ?_ }
  obtain ⟨b, hb, rfl⟩ := List.mem_map.mp ha
  rw [Session.replaced]
  split
  · exact hnext
  · exact h.attributes b hb

theorem setValues (h : s.WellNamed) (table : ValueTable) (rows : List ValueRow) :
    (s.setValues table rows).WellNamed :=
  ⟨by simpa using h.objects, by simpa using h.attributes, by simpa using h.lists⟩

theorem change {t : Store} (hchange : Change s t) (hi : s.Indexed) (h : s.WellNamed) :
    t.WellNamed := by
  have hconcat : ∀ {α : Type} {P : α → Prop} {rows : List α} {row : α}, (∀ r ∈ rows, P r) → P row →
      ∀ r ∈ rows ++ [row], P r := by
    intro α P rows row hrows hrow r hr
    rcases List.mem_append.mp hr with hr | hr
    · exact hrows r hr
    · exact List.mem_singleton.mp hr ▸ hrow
  cases hchange with
  | insertOption | insertStatus | insertRecord | mapRecords | deleteRecords | insertEntry
  | mapEntries | deleteEntries => exact ⟨h.objects, h.attributes, h.lists⟩
  | insertObject _ slug => exact { h with objects := hconcat h.objects slug }
  | insertAttribute _ _ _ slug => exact { h with attributes := hconcat h.attributes slug }
  | insertList _ _ slug => exact { h with lists := hconcat h.lists slug }
  | mapObjects same =>
    refine { h with objects := fun o ho => ?_ }
    obtain ⟨p, hp, rfl⟩ := List.mem_map.mp ho
    exact (same p).2.2 ▸ h.objects p hp
  | mapLists same =>
    refine { h with lists := fun l hl => ?_ }
    obtain ⟨m, hm, rfl⟩ := List.mem_map.mp hl
    exact (same m).2.2 ▸ h.lists m hm
  | deleteObjects p =>
    exact { h with objects := fun o ho => h.objects o (List.mem_filter.mp ho).1 }
  | deleteLists p => exact { h with lists := fun l hl => h.lists l (List.mem_filter.mp hl).1 }
  | deleteAttributes =>
    refine setValues (s := { s with attributes := _, options := _, statuses := _ }) ?_ _ _
    exact { h with attributes := fun a ha => h.attributes a (List.mem_filter.mp ha).1 }
  | replaceAttribute has changed run =>
    obtain ⟨rows, rfl⟩ := Session.exists_rows_replaceAttribute hi _ _ run
    obtain ⟨a, ha, rfl⟩ := has
    exact (h.withReplaced (checkSlug_of_changedAttribute changed (h.attributes a ha))).setValues _ _
  | removeOption _ _ _ _ run | removeStatus _ _ _ _ run =>
    obtain ⟨⟨rows, rfl⟩, -⟩ := Session.yields_detachChoice _ _ _ run
    exact ⟨by simpa using h.objects, by simpa using h.attributes, by simpa using h.lists⟩
  | storeValue | deleteValues => exact h.setValues _ _

end WellNamed

theorem Reachable.wellNamed (h : s.Reachable) : s.WellNamed :=
  sound_empty.invariant (fun _ _ hchange hs hnamed => hnamed.change hchange hs.indexed) h.changes
    wellNamed_empty

theorem WellNamed.isSlug (h : s.WellNamed) {scope : NameScope} {p : Id × String}
    (hp : p ∈ s.names scope) : IsSlug p.2 := by
  cases scope with
  | objects workspace =>
    obtain ⟨o, ho, rfl⟩ := List.mem_map.mp hp
    exact checkSlug_eq_ok_iff.mp (h.objects o (List.mem_filter.mp ho).1)
  | attributes parent =>
    obtain ⟨a, ha, rfl⟩ := List.mem_map.mp hp
    exact checkSlug_eq_ok_iff.mp (h.attributes a (List.mem_filter.mp ha).1)
  | lists objectId =>
    obtain ⟨l, hl, rfl⟩ := List.mem_map.mp hp
    exact checkSlug_eq_ok_iff.mp (h.lists l (List.mem_filter.mp hl).1)

/-! ### What is resolved by slug -/

/-- The names of sort keys that belong to no attribute. -/
def systemNames : List String := ["$created_at", "$updated_at", "$position"]

theorem WellNamed.notMem_systemNames (h : s.WellNamed) {a : AttributeHead}
    (ha : a ∈ s.attributes) : a.slug ∉ systemNames := by
  have hslug := checkSlug_eq_ok_iff.mp (h.attributes a ha)
  have hne : ∀ name ∈ systemNames, a.slug ≠ name := by
    intro name hname
    simp only [systemNames, List.mem_cons, List.not_mem_nil, or_false] at hname
    rcases hname with rfl | rfl | rfl <;>
      exact hslug.ne_of_first (c := '$') (by decide) (by decide)
  exact fun hmem => hne _ hmem rfl

theorem Indexed.resolve_slug (h : s.Indexed) {a : AttributeHead} (ha : a ∈ s.attributes)
    (unknown : UnknownPolicy) (part : QueryPart) :
    resolve unknown (s.attributesOf a.parent) part a.slug = .ok (some (s.withChoices a)) := by
  have hfind : (s.attributesOf a.parent).find? (fun b => b.slug == (s.withChoices a).slug) =
      some (s.withChoices a) :=
    find?_of_pairwise_ne (h.slugs_attributesOf a.parent) (mem_attributesOf ha)
  simp only [resolve]
  rw [show a.slug = (s.withChoices a).slug from rfl, hfind]

theorem sortField_slug (hi : s.Indexed) (hnamed : s.WellNamed) {a : AttributeHead}
    (ha : a ∈ s.attributes) (unknown : UnknownPolicy) :
    sortField unknown (s.attributesOf a.parent) a.slug =
      .ok (some (.value a.id (choiceRanks (s.withChoices a)))) := by
  have hsystem := hnamed.notMem_systemNames ha
  simp only [systemNames, List.mem_cons, List.not_mem_nil, or_false, not_or] at hsystem
  rw [sortField, if_neg hsystem.1, if_neg hsystem.2.1, if_neg hsystem.2.2,
    hi.resolve_slug ha unknown .sort]
  rfl

/-! ### Giving a name -/

theorem objectNamed?_eq_none_iff {workspace : Id} {slug : String} :
    s.objectNamed? workspace slug = none ↔ ¬ s.Taken (.objects workspace) none slug := by
  simp [objectNamed?, Taken, names]

theorem listNamed?_eq_none_iff {objectId : Id} {slug : String} :
    s.listNamed? objectId slug = none ↔ ¬ s.Taken (.lists objectId) none slug := by
  simp [listNamed?, Taken, names]

theorem slugTaken_iff {parent : Parent} {slug : String} :
    s.slugTaken parent slug = true ↔ s.Taken (.attributes parent) none slug := by
  constructor
  · intro h
    obtain ⟨a, ha, hslug⟩ := List.any_eq_true.mp h
    obtain ⟨⟨b, hb, rfl⟩, hparent⟩ := has_of_mem_attributesOf ha
    refine ⟨(b.id, b.slug), List.mem_map.mpr ⟨b, ?_, rfl⟩, beq_iff_eq.mp hslug, nofun⟩
    exact List.mem_filter.mpr ⟨hb, beq_iff_eq.mpr hparent⟩
  · rintro ⟨p, hp, rfl, -⟩
    obtain ⟨b, hb, rfl⟩ := List.mem_map.mp hp
    obtain ⟨hb, hparent⟩ := List.mem_filter.mp hb
    exact beq_iff_eq.mp hparent ▸ slugTaken_of_mem hb

/-- The own slug of an attribute does not stand in its way. -/
theorem Indexed.taken_iff (h : s.Indexed) {a : AttributeHead} (ha : a ∈ s.attributes)
    {slug : String} : s.Taken (.attributes a.parent) (some a.id) slug ↔
      slug ≠ a.slug ∧ s.slugTaken a.parent slug = true := by
  rw [slugTaken_iff]
  constructor
  · rintro ⟨p, hp, rfl, hother⟩
    refine ⟨?_, p, hp, rfl, nofun⟩
    obtain ⟨b, hb, rfl⟩ := List.mem_map.mp hp
    obtain ⟨hb, hparent⟩ := List.mem_filter.mp hb
    have hne : b ≠ a := fun heq => hother (congrArg (fun c => some c.id) heq.symm)
    have hapart : b.Apart a := h.attributes.forall hb ha hne
    exact fun hslug => hapart.2 ⟨beq_iff_eq.mp hparent, hslug⟩
  · rintro ⟨hne, p, hp, rfl, -⟩
    refine ⟨p, hp, rfl, fun hid => ?_⟩
    obtain ⟨b, hb, rfl⟩ := List.mem_map.mp hp
    have hba : b = a := eq_of_pairwise_ne h.attributeIds (List.mem_filter.mp hb).1 ha
      (Option.some.inj hid).symm
    exact hne (hba ▸ rfl)

theorem perform_eq_error {setup : Setup} {stamp : Stamp} {call : Call} {e : Error}
    (h : Session.Fails s (Session.ofCall setup stamp call) e) :
    s.perform setup stamp call = .error e := perform_eq_error_iff.mpr h

theorem exists_perform {setup : Setup} {stamp : Stamp} {call : Call}
    (h : Session.Succeeds s (Session.ofCall setup stamp call) fun _ _ => True) :
    ∃ answer t, s.perform setup stamp call = .ok (answer, t) := by
  obtain ⟨answer, t, hrun, -⟩ := h
  exact ⟨answer, t, perform_eq_ok_iff.mpr hrun⟩

end Store

theorem requireName_eq_ok {field : NameField} {text : String} (h : Text.isBlank text = false) :
    requireName field text = .ok (Text.trim text) := by
  rw [requireName, if_neg (Bool.eq_false_iff.mp h)]

/-- The first ids of a stamp are new: none of them is in use, and no two of them are the same. -/
structure Stamp.Unused (stamp : Stamp) (s : Store) (count : Nat) : Prop where
  objects : ∀ k < count, ∀ o ∈ s.objects, o.id ≠ stamp.fresh k
  attributes : ∀ k < count, ∀ a ∈ s.attributes, a.id ≠ stamp.fresh k
  options : ∀ k < count, ∀ o ∈ s.options, o.id ≠ stamp.fresh k
  statuses : ∀ k < count, ∀ u ∈ s.statuses, u.id ≠ stamp.fresh k
  lists : ∀ k < count, ∀ l ∈ s.lists, l.id ≠ stamp.fresh k
  apart : ∀ j < count, ∀ k < count, stamp.fresh j = stamp.fresh k → j = k

namespace Session

open Store (NameScope)

variable {s : Store} {setup : Setup} {stamp : Stamp}

/-! ### Creating objects and lists -/

theorem fails_createObject {new : NewObject} (hslug : checkSlug new.slug = .ok ())
    (hsingular : Text.isBlank new.singularName = false)
    (hplural : Text.isBlank new.pluralName = false)
    (htaken : s.Taken (.objects new.workspace) none new.slug) :
    Fails s (createObject stamp new) (.conflict (.objectSlug new.slug)) := by
  refine .liftM hslug (.liftM (requireName_eq_ok hsingular) (.liftM (requireName_eq_ok hplural) ?_))
  refine .get (.refused (require_eq_error_iff.mpr ⟨fun hnone => ?_, rfl⟩))
  exact Store.objectNamed?_eq_none_iff.mp hnone htaken

theorem succeeds_createObject {new : NewObject} (hslug : checkSlug new.slug = .ok ())
    (hsingular : Text.isBlank new.singularName = false)
    (hplural : Text.isBlank new.pluralName = false)
    (hfresh : ∀ o ∈ s.objects, o.id ≠ stamp.fresh 0)
    (hfree : ¬ s.Taken (.objects new.workspace) none new.slug) :
    Succeeds s (createObject stamp new) fun _ _ => True := by
  have hnone := Store.objectNamed?_eq_none_iff.mpr hfree
  refine .bind (.liftM hslug (.bind (.liftM (requireName_eq_ok hsingular) (.bind
    (.liftM (requireName_eq_ok hplural) (.bind ⟨s, s, rfl, ?_⟩))))))
  refine .bind (.liftM (require_eq_ok_iff.mpr hnone) (.bind (.write ?_ (.pure trivial))))
  intro o ho
  refine ⟨hfresh o ho, fun heq => ?_⟩
  exact absurd (by simp [heq]) (List.find?_eq_none.mp hnone o ho)

theorem fails_createList {new : NewList} (hslug : checkSlug new.slug = .ok ())
    (hname : Text.isBlank new.name = false) {o : Object}
    (hobject : s.requireObject new.objectId = .ok o)
    (htaken : s.Taken (.lists new.objectId) none new.slug) :
    Fails s (createList stamp new) (.conflict (.listSlug new.slug)) := by
  refine .liftM hslug (.liftM (requireName_eq_ok hname) (.look hobject (.get (.refused ?_))))
  refine require_eq_error_iff.mpr ⟨fun hnone => ?_, rfl⟩
  exact Store.listNamed?_eq_none_iff.mp hnone htaken

theorem succeeds_createList {new : NewList} (hslug : checkSlug new.slug = .ok ())
    (hname : Text.isBlank new.name = false) {o : Object}
    (hobject : s.requireObject new.objectId = .ok o)
    (hfresh : ∀ l ∈ s.lists, l.id ≠ stamp.fresh 0)
    (hfree : ¬ s.Taken (.lists new.objectId) none new.slug) :
    Succeeds s (createList stamp new) fun _ _ => True := by
  have hnone := Store.listNamed?_eq_none_iff.mpr hfree
  refine .bind (.liftM hslug (.bind (.liftM (requireName_eq_ok hname) (.bind (.look hobject
    (.bind ⟨s, s, rfl, ?_⟩))))))
  refine .bind (.liftM (require_eq_ok_iff.mpr hnone) (.bind (.write ?_ (.pure trivial))))
  intro l hl
  refine ⟨hfresh l hl, fun heq => ?_⟩
  exact absurd (by simp [heq]) (List.find?_eq_none.mp hnone l hl)

/-! ### Creating attributes -/

theorem succeeds_insertOptions {attributeId : Id} {place : Nat} {new : List NewOption}
    (htitles : ∀ o ∈ new, Text.isBlank o.title = false)
    (hpass : setup.pass .optionInserted = .ok ())
    (hunused : ∀ k, place < k → k ≤ place + new.length → ∀ o ∈ s.options, o.id ≠ stamp.fresh k)
    (hapart : ∀ j k, place < j → j < k → k ≤ place + new.length → stamp.fresh j ≠ stamp.fresh k) :
    Succeeds s (insertOptions setup stamp attributeId place new) fun _ t =>
      t.statuses = s.statuses := by
  induction new generalizing s place with
  | nil => exact .pure rfl
  | cons o rest ih =>
    obtain ⟨htitle, hrest⟩ := List.forall_mem_cons.mp htitles
    rw [List.length_cons] at hunused hapart
    refine .bind (.bind (.liftM (requireName_eq_ok htitle) (.bind (.write ?_ (.pure ?_)))))
    · exact hunused (place + 1) (by omega) (by omega)
    refine .bind (.liftM hpass (.bind ((ih hrest ?_ ?_).mono fun others t ht => .pure ht)))
    · intro k hk hlast p hp
      rcases List.mem_append.mp hp with hp | hp
      · exact hunused k (by omega) (by omega) p hp
      · rw [List.mem_singleton.mp hp]
        exact hapart (place + 1) k (by omega) (by omega) (by omega)
    · exact fun j k hj hjk hk => hapart j k (by omega) hjk (by omega)

theorem succeeds_insertStatuses {attributeId : Id} {place : Nat} {new : List NewStatus}
    (htitles : ∀ u ∈ new, Text.isBlank u.title = false)
    (hpass : setup.pass .optionInserted = .ok ())
    (hunused : ∀ k, place < k → k ≤ place + new.length → ∀ u ∈ s.statuses, u.id ≠ stamp.fresh k)
    (hapart : ∀ j k, place < j → j < k → k ≤ place + new.length → stamp.fresh j ≠ stamp.fresh k) :
    Succeeds s (insertStatuses setup stamp attributeId place new) fun _ _ => True := by
  induction new generalizing s place with
  | nil => exact .pure trivial
  | cons u rest ih =>
    obtain ⟨htitle, hrest⟩ := List.forall_mem_cons.mp htitles
    rw [List.length_cons] at hunused hapart
    refine .bind (.bind (.liftM (requireName_eq_ok htitle) (.bind (.write ?_ (.pure ?_)))))
    · exact hunused (place + 1) (by omega) (by omega)
    refine .bind (.liftM hpass (.bind ((ih hrest ?_ ?_).mono fun _ _ _ => .pure trivial)))
    · intro k hk hlast v hv
      rcases List.mem_append.mp hv with hv | hv
      · exact hunused k (by omega) (by omega) v hv
      · rw [List.mem_singleton.mp hv]
        exact hapart (place + 1) k (by omega) (by omega) (by omega)
    · exact fun j k hj hjk hk => hapart j k (by omega) hjk (by omega)

theorem isBlank_of_check {new : NewAttribute} (h : new.check = .ok ()) :
    Text.isBlank new.title = false := by
  obtain ⟨_, -, h⟩ := bind_eq_ok_iff.mp h
  obtain ⟨_, htitle, -⟩ := bind_eq_ok_iff.mp h
  exact Bool.not_eq_true _ ▸ require_eq_ok_iff.mp htitle

theorem fails_createAttribute {new : NewAttribute} (hcheck : new.check = .ok ())
    (hparent : s.hasParent new.parent = true)
    (htaken : s.Taken (.attributes new.parent) none new.slug) :
    Fails s (createAttribute setup stamp new) (.conflict (.attributeSlug new.slug)) := by
  refine .liftM hcheck (.liftM (requireName_eq_ok (isBlank_of_check hcheck)) (.get ?_))
  refine .liftM (require_eq_ok_iff.mpr hparent) (.refused ?_)
  exact require_eq_error_iff.mpr ⟨not_not_intro (Store.slugTaken_iff.mpr htaken), rfl⟩

/-- What is in the way of a place is in the way of the attribute. -/
theorem fails_createAttribute_of_place {new : NewAttribute} (hcheck : new.check = .ok ())
    (hparent : s.hasParent new.parent = true)
    (hfree : ¬ s.Taken (.attributes new.parent) none new.slug) {e : Error}
    (hplace : new.place ((s.attributesOf new.parent).map (·.sortOrder)) = .error e) :
    Fails s (createAttribute setup stamp new) e := by
  have hnot : ¬ s.slugTaken new.parent new.slug = true := fun h => hfree (Store.slugTaken_iff.mp h)
  refine .liftM hcheck (.liftM (requireName_eq_ok (isBlank_of_check hcheck)) (.get ?_))
  exact .liftM (require_eq_ok_iff.mpr hparent)
    (.liftM (require_eq_ok_iff.mpr hnot) (.refused hplace))

theorem succeeds_createAttribute {new : NewAttribute} (hcheck : new.check = .ok ())
    (hparent : s.hasParent new.parent = true)
    (hoptions : ∀ o ∈ new.options, Text.isBlank o.title = false)
    (hstatuses : ∀ u ∈ new.statuses, Text.isBlank u.title = false)
    (hpass : ∀ point, setup.pass point = .ok ())
    (hids : stamp.Unused s (1 + new.options.length + new.statuses.length))
    (hfree : ¬ s.Taken (.attributes new.parent) none new.slug) {place : Int32}
    (hplace : new.place ((s.attributesOf new.parent).map (·.sortOrder)) = .ok place) :
    Succeeds s (createAttribute setup stamp new) fun _ _ => True := by
  have hapart : ∀ j k, j < k → k < 1 + new.options.length + new.statuses.length →
      stamp.fresh j ≠ stamp.fresh k := by
    intro j k hjk hk heq
    have := hids.apart j (by omega) k hk heq
    omega
  have hnot : ¬ s.slugTaken new.parent new.slug = true := fun h => hfree (Store.slugTaken_iff.mp h)
  refine .bind (.liftM hcheck (.bind (.liftM (requireName_eq_ok (isBlank_of_check hcheck))
    (.bind ⟨s, s, rfl, ?_⟩))))
  refine .bind (.liftM (require_eq_ok_iff.mpr hparent) (.bind
    (.liftM (require_eq_ok_iff.mpr hnot) (.bind (.liftM hplace (.transaction
      (.bind (.write ?_ ?_))))))))
  · intro a ha
    refine ⟨hids.attributes 0 (by omega) a ha, ?_⟩
    rintro ⟨hsame, hslug⟩
    have htaken := Store.slugTaken_of_mem ha
    rw [hsame, hslug] at htaken
    exact hnot htaken
  refine .bind (.liftM (hpass .attributeInserted) (.bind ?_))
  refine (succeeds_insertOptions hoptions (hpass .optionInserted) ?_ ?_).mono fun options t ht => ?_
  · exact fun k _ hk o ho => hids.options k (by omega) o ho
  · exact fun j k _ hjk hk => hapart j k hjk (by omega)
  refine .bind ((succeeds_insertStatuses hstatuses (hpass .optionInserted) ?_ ?_).mono
    fun _ _ _ => .pure trivial)
  · rw [ht]
    exact fun k _ hk u hu => hids.statuses k (by omega) u hu
  · exact fun j k _ hjk hk => hapart j k hjk (by omega)

end Session

/-! ### Renaming attributes -/

/-- Gives an attribute a slug and leaves the rest as it is. -/
def AttributeChanges.ofSlug (slug : String) : AttributeChanges :=
  ⟨some slug, none, none, none, none, none, none, none⟩

namespace Store

variable {s : Store} {setup : Setup} {stamp : Stamp}

theorem changedAttribute_ofSlug {a : AttributeHead} {slug : String}
    (hslug : checkSlug slug = .ok ()) (hfree : slug = a.slug ∨ ¬ s.slugTaken a.parent slug = true)
    (hsets : a.isSet = true → a.type.allowsSets = true) :
    s.changedAttribute a (.ofSlug slug) = .ok { a with slug } := by
  have hchanged : s.changedSlug a (some slug) = .ok slug := by
    rw [changedSlug, hslug, ok_bind, require_eq_ok_iff.mpr hfree, ok_bind]
    rfl
  simp only [changedAttribute, AttributeChanges.ofSlug, hchanged, changedName, changedType,
    changedSettings, Option.getD_none, ok_bind]
  exact bind_eq_ok_iff.mpr ⟨(), require_eq_ok_iff.mpr hsets, rfl⟩

theorem changedAttribute_ofSlug_eq_error {a : AttributeHead} {slug : String}
    (hslug : checkSlug slug = .ok ()) (hne : slug ≠ a.slug)
    (htaken : s.slugTaken a.parent slug = true) :
    s.changedAttribute a (.ofSlug slug) = .error (.conflict (.attributeSlug slug)) := by
  have hrefused : ¬ (slug = a.slug ∨ ¬ s.slugTaken a.parent slug = true) := by
    simp [hne, htaken]
  have hchanged : s.changedSlug a (some slug) = .error (.conflict (.attributeSlug slug)) := by
    rw [changedSlug, hslug, ok_bind, require_eq_error_iff.mpr ⟨hrefused, rfl⟩]
    rfl
  rw [changedAttribute, AttributeChanges.ofSlug, hchanged]
  rfl

/-! ### Calls that give a name -/

/-- The conflict of a slug that is taken. -/
def NameScope.conflict : NameScope → String → Conflict
  | .objects _ => .objectSlug
  | .attributes _ => .attributeSlug
  | .lists _ => .listSlug

/-- A call gives a slug to an item in a scope, to a new item or to one that is there, and is in
order otherwise: what it refers to is there, names are not blank, no failpoint is in the way and the
ids that it gives out are new. -/
inductive Naming (s : Store) (setup : Setup) (stamp : Stamp) :
    Call → NameScope → Option Id → String → Prop
  | createObject {new : NewObject} (singular : Text.isBlank new.singularName = false)
      (plural : Text.isBlank new.pluralName = false) (ids : stamp.Unused s 1) :
      Naming s setup stamp (.createObject new) (.objects new.workspace) none new.slug
  | createAttribute {new : NewAttribute} (check : new.check = .ok ())
      (parent : s.hasParent new.parent = true)
      (options : ∀ o ∈ new.options, Text.isBlank o.title = false)
      (statuses : ∀ u ∈ new.statuses, Text.isBlank u.title = false)
      (passes : ∀ point, setup.pass point = .ok ())
      (ids : stamp.Unused s (1 + new.options.length + new.statuses.length)) :
      Naming s setup stamp (.createAttribute new) (.attributes new.parent) none new.slug
  | createList {new : NewList} (name : Text.isBlank new.name = false)
      (object : ∃ o ∈ s.objects, o.id = new.objectId) (ids : stamp.Unused s 1) :
      Naming s setup stamp (.createList new) (.lists new.objectId) none new.slug
  | rename {a : AttributeHead} (mem : a ∈ s.attributes) (slug : String) :
      Naming s setup stamp (.updateAttribute a.id (.ofSlug slug)) (.attributes a.parent)
        (some a.id) slug

/-- There is a place for the attribute that a call creates, and one for each of its choices. -/
def HasPlaces (s : Store) : Call → Prop
  | .createAttribute new =>
    ∃ place, new.place ((s.attributesOf new.parent).map (·.sortOrder)) = .ok place
  | _ => True

/-- Everything that has a slug is known by it. -/
structure Named (s : Store) : Prop where
  apart : ∀ scope, ((s.names scope).map Prod.snd).Nodup
  shaped : ∀ scope, ∀ p ∈ s.names scope, IsSlug p.2
  apartFromSystem : ∀ a ∈ s.attributes, a.slug ∉ systemNames
  resolves : ∀ a ∈ s.attributes, ∀ unknown part,
    resolve unknown (s.attributesOf a.parent) part a.slug = .ok (some (s.withChoices a))
  sorts : ∀ a ∈ s.attributes, ∀ unknown, sortField unknown (s.attributesOf a.parent) a.slug =
    .ok (some (.value a.id (choiceRanks (s.withChoices a))))
  shows : ∀ a ∈ s.attributes, ∀ owner v, s.shown? a.parent owner a.slug = some v ↔
    ∃ row ∈ s.values a.parent.valueTable, row.isFor owner a.id = true ∧
      decodeCell (s.withChoices a) row.cell.kept = .ok v
  conflicts : ∀ setup stamp call scope item slug, s.Naming setup stamp call scope item slug →
    IsSlug slug → s.Taken scope item slug →
      s.perform setup stamp call = .error (.conflict (scope.conflict slug))
  succeeds : ∀ setup stamp call scope item slug, s.Naming setup stamp call scope item slug →
    IsSlug slug → ¬ s.Taken scope item slug → s.HasPlaces call →
      ∃ answer t, s.perform setup stamp call = .ok (answer, t)
  /-- Where no place is left, that is no conflict. -/
  crowded : ∀ setup stamp call scope item slug, s.Naming setup stamp call scope item slug →
    IsSlug slug → ¬ s.Taken scope item slug → ¬ s.HasPlaces call →
      s.perform setup stamp call = .error (.storage .placeOverflow)

theorem perform_of_taken (hi : s.Indexed) {call : Call} {scope : NameScope} {item : Option Id}
    {slug : String} (hnaming : s.Naming setup stamp call scope item slug) (hslug : IsSlug slug)
    (htaken : s.Taken scope item slug) :
    s.perform setup stamp call = .error (.conflict (scope.conflict slug)) := by
  have hcheck := checkSlug_eq_ok_iff.mpr hslug
  cases hnaming with
  | createObject singular plural =>
    exact perform_eq_error (.bind (Session.fails_createObject hcheck singular plural htaken))
  | createAttribute check parent =>
    exact perform_eq_error (.bind (Session.fails_createAttribute check parent htaken))
  | createList name object =>
    obtain ⟨o, ho⟩ := exists_requireObject object
    exact perform_eq_error (.bind (Session.fails_createList hcheck name ho htaken))
  | @rename a mem =>
    have has : s.Has (s.withChoices a) := ⟨a, mem, rfl⟩
    obtain ⟨hne, htaken⟩ := (hi.taken_iff mem).mp htaken
    exact perform_eq_error (.bind (.look (has.requireAttribute hi)
      (.unseen (changedAttribute_ofSlug_eq_error hcheck hne htaken))))

theorem exists_perform_of_not_taken (h : s.Reachable) {call : Call} {scope : NameScope}
    {item : Option Id} {slug : String} (hnaming : s.Naming setup stamp call scope item slug)
    (hslug : IsSlug slug) (hfree : ¬ s.Taken scope item slug) (hplaces : s.HasPlaces call) :
    ∃ answer t, s.perform setup stamp call = .ok (answer, t) := by
  have hcheck := checkSlug_eq_ok_iff.mpr hslug
  have hi := h.sound.indexed
  have answered : ∀ {α : Type} {x : Session α} {answer : α → Answer},
      Session.Succeeds s x (fun _ _ => True) →
        Session.Succeeds s (Session.answering answer x) fun _ _ => True :=
    fun hx => .bind (hx.mono fun _ _ _ => .pure trivial)
  cases hnaming with
  | createObject singular plural ids =>
    exact exists_perform (answered
      (Session.succeeds_createObject hcheck singular plural (ids.objects 0 Nat.one_pos) hfree))
  | createAttribute check parent options statuses passes ids =>
    obtain ⟨place, hplace⟩ := hplaces
    exact exists_perform (answered
      (Session.succeeds_createAttribute check parent options statuses passes ids hfree hplace))
  | createList name object ids =>
    obtain ⟨o, ho⟩ := exists_requireObject object
    exact exists_perform (answered
      (Session.succeeds_createList hcheck name ho (ids.lists 0 Nat.one_pos) hfree))
  | @rename a mem =>
    have has : s.Has (s.withChoices a) := ⟨a, mem, rfl⟩
    have hnot : slug = a.slug ∨ ¬ s.slugTaken a.parent slug = true := by
      rw [hi.taken_iff mem] at hfree
      exact or_iff_not_imp_left.mpr fun hne htaken => hfree ⟨hne, htaken⟩
    have hchanged := changedAttribute_ofSlug (a := a.kept) hcheck hnot (h.allowsSets a mem)
    obtain ⟨answer, hperform⟩ := exists_perform_eq_ok hi has hchanged rfl
      (storageChanges_eq_false_iff.mpr ⟨rfl, .inl rfl⟩) setup stamp
    exact ⟨answer, _, hperform⟩

theorem perform_of_not_hasPlaces {call : Call} {scope : NameScope} {item : Option Id}
    {slug : String} (hnaming : s.Naming setup stamp call scope item slug)
    (hfree : ¬ s.Taken scope item slug) (hplaces : ¬ s.HasPlaces call) :
    s.perform setup stamp call = .error (.storage .placeOverflow) := by
  cases hnaming with
  | @createAttribute new check parent =>
    obtain ⟨e, he⟩ := exists_eq_error_iff.mpr hplaces
    cases NewAttribute.eq_placeOverflow_of_place he
    exact perform_eq_error (.bind (Session.fails_createAttribute_of_place check parent hfree he))
  | createObject | createList | rename => exact absurd trivial hplaces

/-- Names over whole runs. After any calls, the slugs in a scope differ and have the shape of slugs,
so that each is resolved to what it names, in filters, sorts and views; and a call that gives a slug
and is in order otherwise ends in a conflict just if the slug is taken by another item. -/
theorem named_of_reachable (h : s.Reachable) : s.Named where
  apart := h.sound.indexed.nodup_names
  shaped _ _ hp := h.wellNamed.isSlug hp
  apartFromSystem _ ha := h.wellNamed.notMem_systemNames ha
  resolves _ ha := h.sound.indexed.resolve_slug ha
  sorts _ ha := sortField_slug h.sound.indexed h.wellNamed ha
  shows _ ha _ _ := h.shown?_eq_some_iff ha
  conflicts _ _ _ _ _ _ hnaming := perform_of_taken h.sound.indexed hnaming
  succeeds _ _ _ _ _ _ hnaming := exists_perform_of_not_taken h hnaming
  crowded _ _ _ _ _ _ hnaming _ := perform_of_not_hasPlaces hnaming

/-- A second list of the deals cannot be named like the first, while their attribute can be given
the slug that it has. -/
theorem named_example :
    let step := exampleStep 6 (.createList ⟨exampleId 0 0, "Warm", "hot", false, none⟩)
    exampleStore.perform step.setup step.stamp step.call = .error (.conflict (.listSlug "hot")) ∧
      ∃ answer t, exampleStore.perform step.setup step.stamp
        (.updateAttribute (exampleId 1 0) (.ofSlug "won")) = .ok (answer, t) := by
  intro step
  have hnamed := named_of_reachable reachable_exampleStore
  have hids : step.stamp.Unused exampleStore 1 := by
    refine ⟨?_, ?_, ?_, ?_, ?_, ?_⟩ <;> decide
  have hlist : exampleStore.Naming step.setup step.stamp step.call (.lists (exampleId 0 0)) none
      "hot" := .createList (by decide) ⟨_, List.mem_singleton.mpr rfl, rfl⟩ hids
  have hrename : exampleStore.Naming step.setup step.stamp
      (.updateAttribute (exampleId 1 0) (.ofSlug "won")) (.attributes (.object (exampleId 0 0)))
      (some (exampleId 1 0)) "won" :=
    .rename (a := exampleStore.attributes[0]) (List.mem_singleton.mpr rfl) "won"
  refine ⟨hnamed.conflicts _ _ _ _ _ _ hlist (checkSlug_eq_ok_iff.mp rfl) ?_,
    hnamed.succeeds _ _ _ _ _ _ hrename (checkSlug_eq_ok_iff.mp rfl) ?_ trivial⟩
  · exact ⟨_, List.mem_singleton.mpr rfl, rfl, nofun⟩
  · rintro ⟨p, hp, -, hother⟩
    rw [List.mem_singleton.mp hp] at hother
    exact hother rfl

end Store

end RecordStore
