import RecordStore.Proofs.Keys

/-!
# Retyping

An attribute with values keeps their slot: a change that asks for another one fails and leaves the
store as it was. Nor can its values become sets or cease to be sets, with one exception, for the
check compares slots alone. Names, locations and interactions lie in the structured slot like any
set, so that an attribute of theirs can become one of sets of texts, or the reverse, while it has
values of the former kind.
-/

namespace RecordStore

open Store (storageChanges hasOwnContent)

/-! ### What a change asks for -/

namespace AttributeChanges

/-- An attribute with the type and the multiplicity that a change asks for. -/
def retyped (changes : AttributeChanges) (a : AttributeHead) : AttributeHead :=
  { a with type := changes.type.getD a.type, isSet := changes.isSet.getD a.isSet }

/-- Whether a change asks for another slot, or for sets where there were single values or the
reverse. -/
def Moves (changes : AttributeChanges) (a : AttributeHead) : Prop :=
  (changes.retyped a).isSet ≠ a.isSet ∨ (changes.retyped a).slot ≠ a.slot

end AttributeChanges

/-- The one attribute has single values in the structured slot, the other has sets of what has no
content of its own. -/
structure AttributeHead.Mixes (a b : AttributeHead) : Prop where
  single : a.isSet = false
  structured : a.type.slot = .structured
  sets : b.isSet = true
  plain : hasOwnContent b.type = false

theorem ValueType.hasOwnContent_of_slot {type : ValueType} (h : type.slot = .structured) :
    hasOwnContent type = false := by
  cases type <;> first | rfl | cases h

/-- Types with sets and without content of their own are those of texts. -/
theorem ValueType.allowsSets_and_plain_iff {type : ValueType} :
    type.allowsSets = true ∧ hasOwnContent type = false ↔
      type = .email ∨ type = .phone ∨ type = .domain := by
  cases type <;> decide

namespace AttributeHead

variable {a b : AttributeHead}

theorem storageChanges_eq_false_of_single (ha : a.isSet = false) (hb : b.isSet = true) :
    storageChanges a b = false ↔ a.Mixes b := by
  rw [Store.storageChanges_eq_false_iff]
  simp only [slot, ha, hb, if_true, Bool.false_eq_true, if_false]
  constructor
  · rintro ⟨hslot, htype⟩
    have hown := ValueType.hasOwnContent_of_slot hslot
    refine ⟨ha, hslot, hb, ?_⟩
    rcases htype with htype | ⟨-, hplain⟩
    · rw [← htype]
      exact hown
    · exact hplain
  · intro h
    exact ⟨h.structured, .inr ⟨ValueType.hasOwnContent_of_slot h.structured, h.plain⟩⟩

theorem storageChanges_comm : storageChanges a b = storageChanges b a := by
  rw [Bool.eq_iff_iff, ← Bool.not_eq_false, ← Bool.not_eq_false, not_iff_not,
    Store.storageChanges_eq_false_iff, Store.storageChanges_eq_false_iff]
  constructor
  · rintro ⟨hslot, htype⟩
    exact ⟨hslot.symm, htype.imp Eq.symm And.symm⟩
  · rintro ⟨hslot, htype⟩
    exact ⟨hslot.symm, htype.imp Eq.symm And.symm⟩

/-- Of the changes that move values the check lets through those that mix single values with
sets. -/
theorem storageChanges_eq_false_of_moves (h : b.isSet ≠ a.isSet ∨ b.slot ≠ a.slot) :
    storageChanges a b = false ↔ a.Mixes b ∨ b.Mixes a := by
  cases ha : a.isSet <;> cases hb : b.isSet
  case false.true =>
    rw [storageChanges_eq_false_of_single ha hb]
    exact ⟨.inl, fun hmixes => hmixes.resolve_right fun hback => by simp [hback.sets] at ha⟩
  case true.false =>
    rw [storageChanges_comm, storageChanges_eq_false_of_single hb ha]
    exact ⟨.inr, fun hmixes => hmixes.resolve_left fun hback => by simp [hback.sets] at hb⟩
  all_goals
    have hslot : b.slot ≠ a.slot := h.resolve_left (by simp [ha, hb])
    constructor
    · intro hstays
      exact absurd (Store.storageChanges_eq_false_iff.mp hstays).1.symm hslot
    · rintro (hmixes | hmixes)
      · simp [hmixes.single, hmixes.sets] at ha hb
      · simp [hmixes.single, hmixes.sets] at ha hb

end AttributeHead

namespace Store

variable {s t : Store}

/-! ### Outcomes of calls -/

theorem perform_eq_ok_iff {setup : Setup} {stamp : Stamp} {call : Call} {answer : Answer} :
    s.perform setup stamp call = .ok (answer, t) ↔
      (Session.ofCall setup stamp call).run s = .ok answer t := by
  rw [perform]
  cases (Session.ofCall setup stamp call).run s with
  | ok _ _ => simp
  | error _ _ => simp

theorem perform_eq_error_iff {setup : Setup} {stamp : Stamp} {call : Call} {e : Error} :
    s.perform setup stamp call = .error e ↔
      ∃ t, (Session.ofCall setup stamp call).run s = .error e t := by
  rw [perform]
  cases (Session.ofCall setup stamp call).run s with
  | ok _ _ => simp
  | error _ _ => simp

theorem perform_answering_eq_ok_iff {α : Type} {setup : Setup} {stamp : Stamp} {call : Call}
    {answer : Answer} {f : α → Answer} {x : Session α}
    (h : Session.ofCall setup stamp call = Session.answering f x) :
    s.perform setup stamp call = .ok (answer, t) ↔ ∃ a, x.run s = .ok a t ∧ answer = f a := by
  rw [perform_eq_ok_iff, h, Session.answering, Session.run_bind_eq_ok]
  constructor
  · rintro ⟨a, u, hrun, hpure⟩
    cases hpure
    exact ⟨a, hrun, rfl⟩
  · rintro ⟨a, hrun, rfl⟩
    exact ⟨a, t, hrun, rfl⟩

theorem answer_tell {setup : Setup} {stamp : Stamp} {call : Call} {f : Store → Answer}
    (h : Session.ofCall setup stamp call = Session.tell f) :
    s.answer setup stamp call = .ok (f s) := by
  rw [answer, perform, h]
  rfl

theorem perform_look {α : Type} {setup : Setup} {stamp : Stamp} {call : Call}
    {g : Store → Except Error α} {f : α → Answer} {a : α}
    (h : Session.ofCall setup stamp call = Session.answering f (Session.look g))
    (hg : g s = .ok a) : s.perform setup stamp call = .ok (f a, s) :=
  (perform_answering_eq_ok_iff h).mpr ⟨a, Session.run_liftM_eq_ok.mpr ⟨hg, rfl⟩, rfl⟩

theorem answer_look {α : Type} {setup : Setup} {stamp : Stamp} {call : Call}
    {g : Store → Except Error α} {f : α → Answer}
    (h : Session.ofCall setup stamp call = Session.answering f (Session.look g)) :
    s.answer setup stamp call = (g s).map f := by
  cases hg : g s with
  | ok a =>
    rw [answer, perform_look h hg]
    rfl
  | error e =>
    obtain ⟨u, hrun⟩ : Session.Fails s (Session.ofCall setup stamp call) e :=
      h ▸ .bind ⟨s, Session.run_liftM_eq_error.mpr ⟨hg, rfl⟩⟩
    rw [answer, perform, hrun]
    rfl

/-! ### Changing an attribute -/

theorem retyped_of_changedAttribute {current next : AttributeHead} {changes : AttributeChanges}
    (h : s.changedAttribute current changes = .ok next) :
    next.type = (changes.retyped current).type ∧ next.isSet = (changes.retyped current).isSet ∧
      next.isUnique = changes.isUnique.getD current.isUnique := by
  obtain ⟨slug, title, -, -, -, rfl⟩ := changedAttribute_eq_ok h
  exact ⟨rfl, rfl, rfl⟩

theorem slug_of_changedAttribute {current next : AttributeHead} {changes : AttributeChanges}
    (h : s.changedAttribute current changes = .ok next) :
    next.slug = changes.slug.getD current.slug := by
  obtain ⟨slug, title, hslug, -, -, rfl⟩ := changedAttribute_eq_ok h
  exact (changedSlug_eq_ok hslug).1

theorem sets_of_changedAttribute {current next : AttributeHead} {changes : AttributeChanges}
    (h : s.changedAttribute current changes = .ok next) :
    next.isSet = true → next.type.allowsSets = true := by
  obtain ⟨slug, title, -, -, hsets, rfl⟩ := changedAttribute_eq_ok h
  exact hsets

/-- Attributes have sets only of types that allow it, whatever calls there were. -/
theorem Reachable.allowsSets (h : s.Reachable) :
    ∀ a ∈ s.attributes, a.isSet = true → a.type.allowsSets = true := by
  refine sound_empty.invariant
    (I := fun s => ∀ a ∈ s.attributes, a.isSet = true → a.type.allowsSets = true) ?_ h.changes
    fun a ha => absurd ha List.not_mem_nil
  intro u t hchange hs hu
  cases hchange with
  | @insertAttribute a _ _ sets =>
    intro b hb
    rcases List.mem_append.mp hb with hb | hb
    · exact hu b hb
    · rw [List.mem_singleton.mp hb]
      exact sets
  | replaceAttribute has changed run =>
    have hnext := sets_of_changedAttribute changed
    intro b hb
    rw [(Session.rows_replaceAttribute hs.indexed _ _ run).1] at hb
    obtain ⟨c, hc, rfl⟩ := List.mem_map.mp hb
    rw [Session.replaced]
    split
    · exact hnext
    · exact hu c hc
  | deleteAttributes =>
    intro b hb
    rw [attributes_withoutAttributes] at hb
    exact hu b (List.mem_filter.mp hb).1
  | removeOption _ _ _ _ run | removeStatus _ _ _ _ run =>
    obtain ⟨⟨rows, rfl⟩, -⟩ := Session.yields_detachChoice _ _ _ run
    intro b hb
    rw [attributes_setValues] at hb
    exact hu b hb
  | storeValue | deleteValues =>
    intro b hb
    rw [attributes_setValues] at hb
    exact hu b hb
  | _ => exact hu

theorem Has.requireAttribute (hi : s.Indexed) {a : Attribute} (h : s.Has a) :
    s.requireAttribute a.id = .ok a := by
  obtain ⟨b, hb, rfl⟩ := h
  have hfind : s.attributes.find? (fun c => c.id == (s.withChoices b).id) = some b :=
    find?_of_pairwise_ne hi.attributeIds hb
  rw [requireAttribute_eq_ok_iff, attribute?, hfind, Option.map_some]

theorem slugTaken_of_mem {b : AttributeHead} (hb : b ∈ s.attributes) :
    s.slugTaken b.parent b.slug = true :=
  List.any_eq_true.mpr ⟨s.withChoices b, mem_attributesOf hb, beq_self_eq_true _⟩

/-- The slug of a changed attribute is that of no other one of its parent. -/
theorem slug_ne_of_changedAttribute (hi : s.Indexed) {a next : AttributeHead}
    {changes : AttributeChanges} (ha : a ∈ s.attributes)
    (h : s.changedAttribute a.kept changes = .ok next) {b : AttributeHead}
    (hb : b ∈ s.attributes) (hid : b.id ≠ a.id) (hparent : b.parent = a.parent) :
    b.slug ≠ next.slug := by
  obtain ⟨slug, title, hslug, -, -, rfl⟩ := changedAttribute_eq_ok h
  obtain ⟨hgiven, hasked⟩ := changedSlug_eq_ok hslug
  have hown : b.slug ≠ a.slug := by
    have hne : b ≠ a := fun heq => hid (congrArg AttributeHead.id heq)
    have hapart : b.Apart a := hi.attributes.forall hb ha hne
    exact fun heq => hapart.2 ⟨hparent, heq⟩
  rintro rfl
  cases hslug' : changes.slug with
  | none =>
    rw [hslug'] at hgiven
    exact hown hgiven
  | some given =>
    rw [hslug'] at hasked
    obtain ⟨-, hsame | hfree⟩ := hasked rfl
    · exact hown hsame
    · have htaken := slugTaken_of_mem hb
      rw [hparent] at htaken
      exact hfree htaken

theorem pairwise_replaced (hi : s.Indexed) {a next : AttributeHead} {changes : AttributeChanges}
    (ha : a ∈ s.attributes) (h : s.changedAttribute a.kept changes = .ok next) :
    (s.attributes.map (Session.replaced next)).Pairwise AttributeHead.Apart := by
  have hnext : next.id = a.kept.id := id_of_changedAttribute h
  have happly : ∀ {b c}, b ∈ s.attributes → c ∈ s.attributes → b.id = next.id →
      c.id ≠ next.id → (Session.replaced next b).Apart (Session.replaced next c) := by
    intro b c hb hc hbid hcid
    have hba : b = a := eq_of_pairwise_ne hi.attributeIds hb ha (hbid.trans hnext)
    subst hba
    rw [Session.replaced, if_pos hbid, Session.replaced, if_neg hcid]
    rw [hnext] at hcid
    refine ⟨Ne.symm hcid, ?_⟩
    rintro ⟨hparent, hslug⟩
    exact slug_ne_of_changedAttribute hi ha h hc hcid hparent.symm hslug.symm
  rw [List.pairwise_map]
  refine hi.attributes.imp_of_mem fun {b c} hb hc hbc => ?_
  by_cases hbid : b.id = next.id <;> by_cases hcid : c.id = next.id
  · exact absurd (hbid.trans hcid.symm) hbc.1
  · exact happly hb hc hbid hcid
  · exact symm (happly hc hb hcid hbid)
  · rw [Session.replaced, if_neg hbid, Session.replaced, if_neg hcid]
    exact hbc

theorem storageChanges_of_changedAttribute {a next : AttributeHead} {changes : AttributeChanges}
    (h : s.changedAttribute a changes = .ok next) :
    storageChanges a next = storageChanges a (changes.retyped a) := by
  obtain ⟨htype, hset, -⟩ := retyped_of_changedAttribute h
  simp only [storageChanges, AttributeHead.slot, htype, hset]

/-- A change that the check objects to fails, whatever else it asks for. -/
theorem exists_perform_eq_error (h : s.Reachable) {a : Attribute} (has : s.Has a)
    (hvalues : s.hasValues a.toAttributeHead = true) {changes : AttributeChanges}
    (hmoves : storageChanges a.toAttributeHead (changes.retyped a.toAttributeHead) = true)
    (setup : Setup) (stamp : Stamp) :
    ∃ e, s.perform setup stamp (.updateAttribute a.id changes) = .error e ∧
      s.after setup stamp (.updateAttribute a.id changes) = s := by
  cases hperform : s.perform setup stamp (.updateAttribute a.id changes) with
  | error e => exact ⟨e, rfl, (settles_call h.sound setup stamp _).2 e hperform⟩
  | ok result =>
    obtain ⟨changed, t, hrun, -⟩ :=
      Session.run_bind_eq_ok.mp (perform_eq_ok_iff.mp hperform)
    have hyields : Session.Yields s (Session.updateAttribute a.id changes) fun _ _ => False := by
      refine .look fun current hcurrent => .look fun next hnext => .bind fun _ u hu => ?_
      rw [has.requireAttribute h.sound.indexed] at hcurrent
      cases hcurrent
      obtain ⟨hguard, -⟩ := Session.yields_replaceAttribute h.sound.indexed _ _
        (Session.run_transaction_eq_ok.mp hu)
      exact absurd ⟨(storageChanges_of_changedAttribute hnext).trans hmoves, hvalues⟩ hguard
    exact (hyields hrun).elim

/-- A change that is in order, leaves uniqueness alone and is not objected to is made: the values
stay as they are stored. -/
theorem exists_perform_eq_ok (hi : s.Indexed) {a : Attribute} (has : s.Has a)
    {next : AttributeHead} {changes : AttributeChanges}
    (hnext : s.changedAttribute a.toAttributeHead changes = .ok next)
    (hunique : changes.isUnique.getD a.isUnique = a.isUnique)
    (hstays : storageChanges a.toAttributeHead (changes.retyped a.toAttributeHead) = false)
    (setup : Setup) (stamp : Stamp) :
    ∃ answer, s.perform setup stamp (.updateAttribute a.id changes) =
      .ok (answer, s.withReplaced next) := by
  have hsame : next.isUnique = a.isUnique :=
    (retyped_of_changedAttribute hnext).2.2.trans hunique
  have hapart : (s.attributes.map (Session.replaced next)).Pairwise AttributeHead.Apart := by
    obtain ⟨head, hhead, rfl⟩ := has
    exact pairwise_replaced hi hhead hnext
  have hguard : ¬ (storageChanges a.toAttributeHead next = true ∧
      s.hasValues a.toAttributeHead = true) := by
    rw [storageChanges_of_changedAttribute hnext, hstays]
    exact fun h => Bool.false_ne_true h.1
  have hsucceeds : Session.Succeeds s
      (Session.answering .anAttribute (Session.updateAttribute a.id changes))
      fun _ t => t = s.withReplaced next := by
    refine .bind (.bind (.look (has.requireAttribute hi) (.bind (.look hnext (.bind
      (.transaction (.bind ⟨s, s, rfl, ?_⟩)))))))
    refine .bind (.liftM (require_eq_ok_iff.mpr hguard) (.bind (.write hapart ?_)))
    rw [if_neg (not_not_intro hsame)]
    exact .pure (.pure (.pure rfl))
  obtain ⟨answer, t, hrun, rfl⟩ := hsucceeds
  exact ⟨answer, perform_eq_ok_iff.mpr hrun⟩

/-! ### Changes that move values -/

/-- A change that would move the values of an attribute to another slot, or make sets of them or
single values of sets, fails and leaves the store as it was, unless it mixes single values with
sets in the structured slot. Such a change is made, if it is in order otherwise. -/
theorem updateAttribute_of_moves (h : s.Reachable) {a : Attribute} (has : s.Has a)
    (hvalues : s.hasValues a.toAttributeHead = true) {changes : AttributeChanges}
    (hmoves : changes.Moves a.toAttributeHead) (setup : Setup) (stamp : Stamp) :
    let retyped := changes.retyped a.toAttributeHead
    let mixes := a.toAttributeHead.Mixes retyped ∨ retyped.Mixes a.toAttributeHead
    (¬ mixes → ∃ e, s.perform setup stamp (.updateAttribute a.id changes) = .error e ∧
      s.after setup stamp (.updateAttribute a.id changes) = s) ∧
    (mixes → ∀ next, s.changedAttribute a.toAttributeHead changes = .ok next →
      changes.isUnique.getD a.isUnique = a.isUnique →
        ∃ answer, s.perform setup stamp (.updateAttribute a.id changes) =
          .ok (answer, s.withReplaced next)) := by
  intro retyped mixes
  have hmixes : storageChanges a.toAttributeHead retyped = false ↔ mixes :=
    AttributeHead.storageChanges_eq_false_of_moves hmoves
  constructor
  · intro hapart
    refine exists_perform_eq_error h has hvalues ?_ setup stamp
    exact Bool.not_eq_false _ ▸ fun hstays => hapart (hmixes.mp hstays)
  · intro hmixed next hnext hunique
    exact exists_perform_eq_ok h.sound.indexed has hnext hunique (hmixes.mpr hmixed) setup stamp

/-! ### A name that is lost -/

theorem Reachable.run (h : s.Reachable) (steps : List Step) : (s.run steps).Reachable := by
  obtain ⟨before, rfl⟩ := h
  exact ⟨before ++ steps, by rw [Store.run, Store.run, Store.run, List.foldl_append]⟩

def exampleNames : AttributeHead :=
  ⟨exampleId 6 0, .object (exampleId 0 0), "who", "Who", .personalName, .obj [], false, false,
    false, false, 1, ⟨6⟩⟩

/-- Gives deals an attribute for names, and the first deal a name. -/
def exampleNaming : List Step := [
  exampleStep 6 (.createAttribute (.plain (.object (exampleId 0 0)) "who" "Who" .personalName)),
  exampleStep 7 (.updateRecord ⟨exampleId 0 0, exampleId 2 0, [("who", .str "A")], none⟩)]

def exampleNamed : Store := { exampleStore with
  attributes := exampleStore.attributes ++ [exampleNames]
  records := [⟨exampleId 2 0, exampleId 0 0, none, ⟨2⟩, none, ⟨7⟩⟩,
    ⟨exampleId 3 0, exampleId 0 0, none, ⟨3⟩, none, ⟨3⟩⟩]
  recordValues := exampleStore.recordValues ++
    [⟨exampleId 2 0, exampleId 6 0, .structured (.obj [("fullName", .str "A")]), none⟩] }

theorem run_exampleNaming : exampleStore.run exampleNaming = exampleNamed := by cbv

theorem reachable_exampleNamed : exampleNamed.Reachable :=
  run_exampleNaming ▸ reachable_exampleStore.run exampleNaming

theorem has_exampleNames : exampleNamed.Has ⟨exampleNames, [], []⟩ :=
  ⟨exampleNames, List.mem_append_right _ (.head _), by cbv⟩

def toSetsOf (type : ValueType) : AttributeChanges :=
  ⟨none, none, some type, none, none, none, some true, none⟩

theorem moves_toSetsOf (type : ValueType) : (toSetsOf type).Moves exampleNames :=
  .inl (by simp [toSetsOf, AttributeChanges.retyped, exampleNames])

/-- Makes sets of a type of the names. -/
def exampleRetyping (type : ValueType) : Step :=
  exampleStep 8 (.updateAttribute (exampleId 6 0) (toSetsOf type))

/-- Options have content of their own, so the name cannot become a set of them. -/
theorem after_eq_of_names_to_options :
    exampleNamed.hasValues exampleNames = true ∧ (toSetsOf .select).Moves exampleNames ∧
      exampleNamed.after (exampleRetyping .select).setup (exampleRetyping .select).stamp
        (exampleRetyping .select).call = exampleNamed := by
  have hvalues : exampleNamed.hasValues exampleNames = true := by cbv
  have hmoves := moves_toSetsOf .select
  have hapart : ¬ (exampleNames.Mixes ((toSetsOf .select).retyped exampleNames) ∨
      ((toSetsOf .select).retyped exampleNames).Mixes exampleNames) := by
    rintro (h | h)
    · cases h.plain
    · cases h.single
  obtain ⟨e, -, hafter⟩ := (updateAttribute_of_moves reachable_exampleNamed has_exampleNames
    hvalues hmoves (exampleRetyping .select).setup (exampleRetyping .select).stamp).1 hapart
  exact ⟨hvalues, hmoves, hafter⟩

/-- The values of the first deal, as a store shows them. -/
def shownOfExample (s : Store) : List String :=
  (shownValues s.recordValues (s.attributesOf (.object (exampleId 0 0))) (exampleId 2 0)).map (·.1)

/-- The name becomes a set of emails although it is there, and is not shown any more. -/
theorem names_to_emails :
    exampleNamed.Reachable ∧ exampleNamed.Has ⟨exampleNames, [], []⟩ ∧
      exampleNamed.hasValues exampleNames = true ∧ (toSetsOf .email).Moves exampleNames ∧
      (∃ answer, exampleNamed.perform (exampleRetyping .email).setup (exampleRetyping .email).stamp
        (exampleRetyping .email).call =
          .ok (answer, exampleNamed.withReplaced ((toSetsOf .email).retyped exampleNames))) ∧
      shownOfExample exampleNamed = ["who", "won"] ∧
      shownOfExample (exampleNamed.withReplaced ((toSetsOf .email).retyped exampleNames)) =
        ["won"] := by
  refine ⟨reachable_exampleNamed, has_exampleNames, by cbv, moves_toSetsOf .email, ?_, by cbv,
    by cbv⟩
  exact ⟨.anAttribute ⟨(toSetsOf .email).retyped exampleNames, [], []⟩, by cbv⟩

end Store

end RecordStore
