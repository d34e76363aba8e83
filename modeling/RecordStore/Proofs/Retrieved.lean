import Mathlib
import RecordStore.Proofs.Creation
import RecordStore.Proofs.Displays
import RecordStore.Proofs.Found
import RecordStore.Proofs.Pages
import RecordStore.Proofs.Shown

/-!
# Values found as they are shown

What a record shows can be asked for. Main statement: the condition that a value equals what is
shown of it selects the record, and so does the condition that a set contains one of the members
that it shows, with few exceptions: a blank text, an instant that is shown as a date and is not the
start of its day, and members that their type would not have stored as they are.
-/

namespace RecordStore

/-! ### Queries with one condition -/

/-- The query for what a condition holds of. -/
def Query.condition (slug : String) (operator : Operator) (operand : Json) : Query :=
  { Query.default with filter := some ⟨.and, [.condition ⟨slug, operator, operand⟩]⟩ }

section

variable {unknown : UnknownPolicy} {attributes : List Attribute} {a : Attribute}
  {operator : Operator} {operand : Json}

theorem holds_condition (hfind : attributes.find? (fun b => b.slug == a.slug) = some a)
    (cells : Cells) :
    Filter.holds attributes cells (Query.condition a.slug operator operand).filter =
      ((Condition.mk a.slug operator operand).test a).accepts (cells a.id) := by
  simp [Query.condition, Filter.holds, Clause.holds?, Clause.said, Condition.holds?, hfind,
    Combinator.joins]

theorem exists_compileFilter_condition_iff
    (hfind : attributes.find? (fun b => b.slug == a.slug) = some a) :
    (∃ m, compileFilter unknown attributes (Query.condition a.slug operator operand).filter =
      .ok m) ↔ (Condition.mk a.slug operator operand).Allowed a := by
  rw [exists_compileFilter_iff]
  simp [Query.condition, Filter.conditions, Clause.conditionsOf, Clause.conditions,
    Condition.Refused, hfind]

/-- A condition on an attribute that is there asks what its test asks, and fails where that cannot
be compiled. -/
theorem exists_compileQuery_condition_iff
    (hfind : attributes.find? (fun b => b.slug == a.slug) = some a) {row : Row} :
    (∃ compiled, compileQuery unknown attributes (.condition a.slug operator operand) =
        .ok compiled ∧ compiled.accepts row = true) ↔
      ∃ t, compileTest a operator operand = .ok t ∧ t.accepts (row.cells a.id) = true := by
  have htest : ∀ t, compileTest a operator operand = .ok t ↔
      (Condition.mk a.slug operator operand).Allowed a ∧
        t = (Condition.mk a.slug operator operand).test a :=
    fun t => compileTest_eq_ok_iff (c := ⟨a.slug, operator, operand⟩)
  constructor
  · rintro ⟨compiled, hcompiled, haccepts⟩
    obtain ⟨m, hm, h⟩ := bind_eq_ok_iff.mp hcompiled
    obtain ⟨keys, -, h⟩ := bind_eq_ok_iff.mp h
    cases h
    refine ⟨_, (htest _).mpr ⟨(exists_compileFilter_condition_iff hfind).mp ⟨m, hm⟩, rfl⟩, ?_⟩
    rw [← holds_condition hfind, holds_eq_of_compileFilter hm]
    exact (Bool.and_eq_true_iff.mp haccepts).1
  · rintro ⟨t, ht, haccepts⟩
    obtain ⟨hallowed, rfl⟩ := (htest t).mp ht
    obtain ⟨m, hm⟩ := (exists_compileFilter_condition_iff hfind).mpr hallowed
    refine ⟨⟨m, none, [⟨.createdAt, .descending⟩]⟩, bind_eq_ok_iff.mpr ⟨m, hm, rfl⟩, ?_⟩
    rw [← holds_condition hfind, holds_eq_of_compileFilter hm] at haccepts
    exact Bool.and_eq_true_iff.mpr ⟨haccepts, rfl⟩

end

namespace Store

variable {s : Store}

/-- Listing the records of an object by a query succeeds, and a record is among those that are
selected. -/
def Selects (s : Store) (setup : Setup) (objectId : Id) (q : Query) (id : Id) : Prop :=
  ∃ page rows, s.listRecords setup objectId q = .ok page ∧
    s.selectRecords setup objectId q = .ok rows ∧ ∃ row ∈ rows, row.id = id

theorem exists_page (h : s.Sound) {setup : Setup} {q : Query} {compiled : CompiledQuery}
    {r : Record} (hr : r ∈ s.records) (hcompiled : compileQuery setup.unknown
      (s.attributesOf (.object r.objectId)) q = .ok compiled) :
    ∃ page, s.listRecords setup r.objectId q = .ok page := by
  obtain ⟨o, ho, hoid⟩ := h.linked.records r hr
  rw [← hoid] at hcompiled ⊢
  obtain ⟨page, hpage, -⟩ := exists_listRecords_eq_ok h.indexed ho hcompiled
  exact ⟨page, hpage⟩

/-- A record of an object is selected just if the query can be compiled and accepts its row. -/
theorem selects_iff (h : s.Sound) {setup : Setup} {q : Query} {r : Record} (hr : r ∈ s.records) :
    s.Selects setup r.objectId q r.id ↔
      ∃ compiled, compileQuery setup.unknown (s.attributesOf (.object r.objectId)) q =
        .ok compiled ∧
          compiled.accepts (s.recordRow (s.attributesOf (.object r.objectId)) r) = true := by
  have hof : r ∈ s.recordsOf r.objectId := List.mem_filter.mpr ⟨hr, beq_self_eq_true _⟩
  set attributes := s.attributesOf (.object r.objectId)
  -- the selected rows are those of the ranked records, and these are the accepted ones
  have hranked : ∀ compiled : CompiledQuery,
      compiled.select ((s.recordsOf r.objectId).map (s.recordRow (compiled.needed attributes))) =
        (compiled.rank (s.recordRow attributes) (s.recordsOf r.objectId)).map
          (s.recordRow (compiled.needed attributes)) :=
    fun compiled => CompiledQuery.select_map fun q _ => s.agreeOn_recordRow attributes compiled q
  have hmem : ∀ (compiled : CompiledQuery) q,
      q ∈ compiled.rank (s.recordRow attributes) (s.recordsOf r.objectId) ↔
        q ∈ s.recordsOf r.objectId ∧ compiled.accepts (s.recordRow attributes q) = true :=
    fun compiled q => (compiled.rank_perm _ _).mem_iff.trans List.mem_filter
  constructor
  · rintro ⟨page, rows, -, hselect, row, hrow, hid⟩
    obtain ⟨compiled, hcompiled, hrows⟩ := bind_eq_ok_iff.mp hselect
    cases hrows
    rw [hranked compiled] at hrow
    obtain ⟨q, hq, rfl⟩ := List.mem_map.mp hrow
    obtain ⟨hqof, haccepts⟩ := (hmem compiled q).mp hq
    obtain rfl : q = r :=
      eq_of_pairwise_ne h.indexed.records (List.mem_filter.mp hqof).1 hr hid
    exact ⟨compiled, hcompiled, haccepts⟩
  · rintro ⟨compiled, hcompiled, haccepts⟩
    obtain ⟨page, hpage⟩ := exists_page h hr hcompiled
    refine ⟨page, _, hpage, selectRecords_eq_ok hcompiled, ?_⟩
    rw [hranked compiled]
    exact ⟨_, List.mem_map_of_mem ((hmem compiled r).mpr ⟨hof, haccepts⟩), rfl⟩

/-- A condition on an attribute selects a record just if its test accepts what the attribute
reads. -/
theorem selects_condition_iff (h : s.Sound) {setup : Setup} {r : Record} (hr : r ∈ s.records)
    {a : AttributeHead} (ha : a ∈ s.attributes) (hparent : a.parent = .object r.objectId)
    {operator : Operator} {operand : Json} :
    s.Selects setup r.objectId (.condition a.slug operator operand) r.id ↔
      ∃ t, compileTest (s.withChoices a) operator operand = .ok t ∧
        t.accepts (cellOf? s.recordValues r.id a) = true := by
  have hmem : s.withChoices a ∈ s.attributesOf (.object r.objectId) :=
    hparent ▸ mem_attributesOf ha
  have hfind : (s.attributesOf (.object r.objectId)).find? (fun b => b.slug == a.slug) =
      some (s.withChoices a) :=
    find?_of_pairwise_ne (f := fun b : Attribute => b.slug)
      (h.indexed.slugs_attributesOf _) hmem
  have hcells : (s.recordRow (s.attributesOf (.object r.objectId)) r).cells a.id =
      cellOf? s.recordValues r.id a :=
    cellsOf_eq h.indexed (fun b hb => (has_of_mem_attributesOf hb).1) hmem _ _
  rw [selects_iff h hr, ← hcells]
  exact exists_compileQuery_condition_iff (a := s.withChoices a) hfind

end Store

/-! ### What a value is asked for by -/

/-- A condition for what equals a value is in order, and a cell equals it. -/
structure Attribute.AsksFor (a : Attribute) (raw : Json) (cell : Cell) : Prop where
  notBlank : raw.isBlank = false
  single : ∀ items, raw ≠ .arr items
  equals : ∃ o, coerceOperand a raw = .ok o ∧ cell.Equals o

/-- A cell is found by what is shown of it: a text if it is not blank, and an instant that is shown
as a date if it is the start of the day. -/
def ValueType.FindsShown (type : ValueType) : Cell → Prop
  | .text s => Text.isBlank s = false
  | .date micros => type = .date → Calendar.microsPerDay ∣ micros
  | _ => True

section

variable {a : Attribute} {cell : Cell} {v : Value}

theorem accepts_equals_iff_asksFor (hequals : Operator.equals ∈ a.operators) {raw : Json} :
    (∃ t, compileTest a .equals raw = .ok t ∧ t.accepts (some cell) = true) ↔
      a.AsksFor raw cell := by
  constructor
  · rintro ⟨t, ht, haccepts⟩
    obtain ⟨-, hblank, hsingle, o, ho, rfl⟩ :=
      (compileTest_one_eq_ok_iff (by decide) (by decide)).mp ht
    exact ⟨hblank, hsingle, o, ho, accepts_equals_iff.mp haccepts⟩
  · rintro ⟨hblank, hsingle, o, ho, hequal⟩
    exact ⟨_, (compileTest_one_eq_ok_iff (by decide) (by decide)).mpr
      ⟨hequals, hblank, hsingle, o, ho, rfl⟩, accepts_equals_iff.mpr hequal⟩

theorem asksFor_text_iff (hslot : a.slot = .text) {s : String} :
    a.AsksFor (.str s) (.text s) ↔ Text.isBlank s = false := by
  rw [← Json.isBlank_str s]
  refine ⟨fun h => h.notBlank, fun hblank => ⟨hblank, nofun, ?_⟩⟩
  exact ⟨_, (coerceOperand_text_iff hslot).mpr ⟨s, rfl, rfl⟩, .text rfl⟩

theorem asksFor_number (hslot : a.slot = .number) (d : Double) (unit : Option String) :
    a.AsksFor d.toJson (.number d unit) := by
  obtain ⟨e, he, -, hsame⟩ := d.exists_coerceNumber_toJson a.slug
  refine ⟨d.isBlank_toJson, ?_, _, (coerceOperand_number_iff hslot).mpr ⟨e, he, rfl⟩,
    .number unit hsame⟩
  intro items
  rw [Double.toJson]
  cases d.int64? <;> simp

theorem coerceNumber_obj (slug : String) {members : List (String × Json)} {amount : Json}
    {d : Double} (hamount : members.lookup "amount" = some amount)
    (h : numberOrText? amount = some d) : coerceNumber slug (.obj members) = .ok d := by
  simp only [coerceNumber, hamount, Option.bind_some, h]

theorem asksFor_amount (hslot : a.slot = .number) (d : Double) (code : String)
    (unit : Option String) :
    a.AsksFor (.obj [("amount", d.toJson), ("currency", .str code)]) (.number d unit) := by
  obtain ⟨e, he, hrank, hsign⟩ := d.exists_number?_toJson
  have hamount : List.lookup "amount" [("amount", d.toJson), ("currency", .str code)] =
      some d.toJson := by simp
  have hcoerced := coerceNumber_obj a.slug hamount (numberOrText?_of_number? he)
  refine ⟨?_, nofun, _, (coerceOperand_number_iff hslot).mpr ⟨e, hcoerced, rfl⟩,
    .number unit (Double.same_of_rank hrank hsign)⟩
  rw [Json.isBlank, Json.blankMembers, d.isBlank_toJson, Bool.false_and]

theorem asksFor_boolean (hslot : a.slot = .boolean) (b : Bool) :
    a.AsksFor (.bool b) (.boolean b) :=
  ⟨by simp [Json.isBlank], nofun, _, (coerceOperand_boolean_iff hslot).mpr ⟨b, rfl, rfl⟩,
    .boolean b⟩

theorem asksFor_reference (hslot : a.slot = .reference) (id : Id) :
    a.AsksFor (.str id.text) (.reference id) :=
  ⟨(Json.isBlank_str _).trans id.isBlank_text, nofun, _,
    (coerceOperand_reference_iff hslot).mpr ⟨id, coerceId_text a.slug id, rfl⟩, .reference id⟩

theorem asksFor_timestamp (htype : a.type = .timestamp) (hslot : a.slot = .date) {micros : Int}
    {s : String} (hs : Calendar.formatTimestamp micros = .ok s) :
    a.AsksFor (.str s) (.date micros) :=
  ⟨(Json.isBlank_str _).trans (Calendar.isBlank_of_formatTimestamp hs), nofun, _,
    (coerceOperand_timestamp_iff htype hslot).mpr
      ⟨s, rfl, micros, Calendar.parseTimestamp_of_formatTimestamp hs, rfl⟩, .date micros⟩

/-- A date stands for the start of its day. -/
theorem asksFor_date_iff (htype : a.type = .date) (hslot : a.slot = .date) {micros : Int}
    {s : String} (hs : Calendar.formatDate micros = .ok s) :
    a.AsksFor (.str s) (.date micros) ↔ Calendar.microsPerDay ∣ micros := by
  have hread := Calendar.parseDate_of_formatDate hs
  constructor
  · rintro ⟨-, -, o, ho, hequal⟩
    obtain ⟨_, ⟨⟩, start, hstart, rfl⟩ := (coerceOperand_date_iff htype hslot).mp ho
    cases hequal
    exact ⟨_, (Except.ok.inj (hread.symm.trans hstart)).symm.trans (Int.mul_comm _ _)⟩
  · rintro ⟨day, rfl⟩
    rw [Int.mul_ediv_cancel_left day (by decide), Int.mul_comm] at hread
    exact ⟨(Json.isBlank_str _).trans (Calendar.isBlank_of_formatDate hs), nofun, _,
      (coerceOperand_date_iff htype hslot).mpr ⟨s, rfl, _, hread, rfl⟩, .date _⟩

/-- What is shown of a single value asks for it, with the exceptions of texts and dates. -/
theorem asksFor_shown_iff (hslot : a.slot = a.type.slot) (hplain : a.type.slot ≠ .structured)
    (hv : decodeSingle a.type cell = .ok v) : a.AsksFor v.toJson cell ↔ a.type.FindsShown cell := by
  have hcell := slot_of_decodeSingle hv
  rw [← hslot] at hcell
  unfold decodeSingle at hv
  rw [if_neg (not_not.mpr (hcell.trans hslot))] at hv
  cases cell with
  | text s =>
    cases hv
    exact asksFor_text_iff hcell.symm
  | number d unit =>
    refine iff_of_true ?_ trivial
    dsimp only at hv
    split at hv <;> cases hv
    · exact asksFor_amount hcell.symm d _ unit
    · exact asksFor_number hcell.symm d unit
  | boolean b =>
    cases hv
    exact iff_of_true (asksFor_boolean hcell.symm b) trivial
  | date micros =>
    dsimp only at hv
    split at hv
    · rename_i htype
      obtain ⟨s, hs, rfl⟩ := map_eq_ok_iff.mp hv
      exact (asksFor_date_iff htype hcell.symm hs).trans ⟨fun h _ => h, fun h => h htype⟩
    · rename_i htype
      obtain ⟨s, hs, rfl⟩ := map_eq_ok_iff.mp hv
      have hdate : a.type.slot = .date := hslot.symm.trans hcell.symm
      have htimestamp := (ValueType.slot_eq_date_iff.mp hdate).resolve_left htype
      exact iff_of_true (asksFor_timestamp htimestamp hcell.symm hs) fun h => absurd h htype
  | structured j => exact absurd (hslot ▸ hcell.symm) hplain
  | reference id =>
    cases hv
    exact iff_of_true (asksFor_reference hcell.symm id) trivial

end

/-! ### What a member is asked for by -/

/-- A member that a set shows is found by what is shown of it: as a text that is not blank, and if
the set has what would be stored of that text. -/
def ValueType.FindsMember (type : ValueType) (members : List Json) (m : Json) : Prop :=
  ∃ s, m = .str s ∧ Text.isBlank s = false ∧
    (type = .email → isEmail (Text.trim s).toList = true ∧
      hasMember members (.str (Text.trim s)) = true) ∧
    (type = .domain → hasMember members (.str (normalizeDomain s)) = true)

section

variable {a : Attribute} {members : List Json} {m : Json}

/-- That a set contains a member is asked by what would be stored of it. -/
theorem accepts_contains_iff (hisSet : a.isSet = true) (hset : a.type.allowsSets = true) :
    (∃ t, compileTest a .contains m = .ok t ∧
      t.accepts (some (.structured (.arr members))) = true) ↔
        ∃ n, encodeMember a m = .ok (some n) ∧ hasMember members n = true := by
  constructor
  · rintro ⟨t, ht, haccepts⟩
    obtain ⟨-, n, hn, rfl⟩ := (compileTest_contains_eq_ok_iff hisSet).mp ht
    exact ⟨n, hn, accepts_contains.symm.trans haccepts⟩
  · rintro ⟨n, hn, hmember⟩
    obtain ⟨-, cell, -, hcell, -⟩ := exists_of_encodeMember hn
    obtain ⟨s, rfl⟩ := exists_str_of_allowsSets hset hcell
    exact ⟨_, (compileTest_contains_eq_ok_iff hisSet).mpr ⟨nofun, n, hn, rfl⟩,
      accepts_contains.trans hmember⟩

theorem encodeMember_str_iff (hslot : a.type.slot = .text) {s : String} {n : Json} :
    encodeMember a (.str s) = .ok (some n) ↔ Text.isBlank s = false ∧
      ∃ t, encodeSingle a (.str s) = .ok (some (.text t)) ∧ .str t = n := by
  constructor
  · intro h
    obtain ⟨hblank, cell, v, hcell, hv, rfl⟩ := exists_of_encodeMember h
    have htext := (slot_of_encodeSingle hcell).trans hslot
    cases cell with
    | text t =>
      cases (decodeSingle_text hslot t).symm.trans hv
      exact ⟨(Json.isBlank_str s).symm.trans hblank, t, hcell, rfl⟩
    | _ => cases htext
  · rintro ⟨hblank, t, hcell, rfl⟩
    rw [encodeMember, Json.isBlank_str, hblank, if_neg Bool.false_ne_true, hcell, ok_bind]
    exact bind_eq_ok_iff.mpr ⟨.text t, decodeSingle_text hslot t, rfl⟩

theorem ValueType.of_allowsSets_text {type : ValueType} (hset : type.allowsSets = true)
    (hslot : type.slot = .text) : type = .phone ∨ type = .email ∨ type = .domain := by
  revert hset hslot
  cases type <;> decide

theorem encodeSingle_phone_iff (htype : a.type = .phone) {s t : String} :
    encodeSingle a (.str s) = .ok (some (.text t)) ↔ s = t := by
  simp [encodeSingle, htype, expectString, bind, Except.bind, pure, Except.pure]

theorem encodeSingle_email_iff (htype : a.type = .email) {s t : String} :
    encodeSingle a (.str s) = .ok (some (.text t)) ↔
      isEmail (Text.trim s).toList = true ∧ Text.trim s = t := by
  have hencode : encodeSingle a (.str s) =
      if isEmail (Text.trim s).toList then .ok (some (.text (Text.trim s)))
      else .error (.invalid (.notAnEmail a.slug (Text.trim s))) := by
    simp only [encodeSingle, htype, expectString, ok_bind]
  rw [hencode]
  generalize Text.trim s = email
  by_cases hemail : isEmail email.toList = true <;> simp [hemail]

theorem encodeSingle_domain_iff (htype : a.type = .domain) {s t : String} :
    encodeSingle a (.str s) = .ok (some (.text t)) ↔ normalizeDomain s = t := by
  rw [encodeSingle_domain htype]
  simp

/-- A text that a set shows is found in it, if the type still stores it alike. -/
theorem exists_encodeMember_iff_findsMember (hset : a.type.allowsSets = true)
    (hslot : a.type.slot = .text) (hm : m ∈ members) :
    (∃ n, encodeMember a m = .ok (some n) ∧ hasMember members n = true) ↔
      a.type.FindsMember members m := by
  have hstored : (∃ n, encodeMember a m = .ok (some n) ∧ hasMember members n = true) ↔
      ∃ s, m = .str s ∧ Text.isBlank s = false ∧
        ∃ t, encodeSingle a (.str s) = .ok (some (.text t)) ∧
          hasMember members (.str t) = true := by
    constructor
    · rintro ⟨n, hn, hmember⟩
      obtain ⟨-, cell, -, hcell, -⟩ := exists_of_encodeMember hn
      obtain ⟨s, rfl⟩ := exists_str_of_allowsSets hset hcell
      obtain ⟨hblank, t, ht, rfl⟩ := (encodeMember_str_iff hslot).mp hn
      exact ⟨s, rfl, hblank, t, ht, hmember⟩
    · rintro ⟨s, rfl, hblank, t, ht, hmember⟩
      exact ⟨.str t, (encodeMember_str_iff hslot).mpr ⟨hblank, t, ht, rfl⟩, hmember⟩
  refine hstored.trans (exists_congr fun s => and_congr_right ?_)
  rintro rfl
  refine and_congr_right fun _ => ?_
  rcases ValueType.of_allowsSets_text hset hslot with htype | htype | htype
  · simp only [encodeSingle_phone_iff htype, htype]
    exact iff_of_true ⟨s, rfl, hasMember_of_mem hm⟩ ⟨by simp, by simp⟩
  · simp only [encodeSingle_email_iff htype, htype]
    simp
  · simp only [encodeSingle_domain_iff htype, htype]
    simp

/-- A set that is shown is found by the members that it shows, in so far as their type stores them
alike. -/
def Attribute.FindsMembers (a : Attribute) (cell : Cell) (v : Value) : Prop :=
  ∃ members, v = .set members ∧ ∀ m ∈ members,
    ((∃ t, compileTest a .contains m = .ok t ∧ t.accepts (some cell) = true) ↔
      a.type.FindsMember members m)

theorem findsMembers_of_text (hisSet : a.isSet = true) (hset : a.type.allowsSets = true)
    (hslot : a.type.slot = .text) {cell : Cell} {v : Value} (hv : decodeCell a cell = .ok v) :
    a.FindsMembers cell v := by
  obtain ⟨items, rfl⟩ := exists_of_decodeCell_set hisSet hv
  rw [decodeCell_set_of_text hisSet hslot] at hv
  cases hv
  refine ⟨items, rfl, fun m hm => ?_⟩
  rw [accepts_contains_iff hisSet hset]
  exact exists_encodeMember_iff_findsMember hset hslot hm

theorem findsMembers_of_idSet (hisSet : a.isSet = true) (hset : a.type.allowsSets = true)
    (hslot : a.type.slot = .reference) {ids : List Id}
    (hids : ∀ id ∈ ids, encodeMember a (choiceMember id) = .ok (some (choiceMember id))) {v : Value}
    (hv : decodeCell a (idSet ids) = .ok v) : a.FindsMembers (idSet ids) v := by
  have hmembers : ∀ m ∈ ids.map choiceMember, decodeMember a.type m = .ok m := by
    intro m hm
    obtain ⟨id, -, rfl⟩ := List.mem_map.mp hm
    exact decodeMember_toJson hset (decodeSingle_reference hslot id)
  rw [idSet, decodeCell, if_pos hisSet, mapM_decodeMember hmembers] at hv
  cases hv
  refine ⟨_, rfl, fun m hm => ?_⟩
  obtain ⟨id, hid, rfl⟩ := List.mem_map.mp hm
  rw [idSet, accepts_contains_iff hisSet hset]
  refine iff_of_true ⟨_, hids id hid, hasMember_of_mem hm⟩ ⟨id.text, rfl, id.isBlank_text, ?_, ?_⟩
  · intro htype
    rw [htype] at hslot
    cases hslot
  · intro htype
    rw [htype] at hslot
    cases hslot

end

namespace Store

variable {s : Store}

/-- An id that is offered can be written. -/
theorem Offers.encodeSingle_eq {a : AttributeHead} {id : Id} (h : s.Offers a id)
    (hslot : a.type.slot = .reference) :
    encodeSingle (s.withChoices a) (.str id.text) = .ok (some (.reference id)) := by
  have hread := coerceId_text (s.withChoices a).slug id
  rw [Offers] at h
  cases htype : a.type with
  | select =>
    rw [htype] at h
    obtain ⟨o, ho, hattribute, rfl⟩ := h
    have hoption : (s.withChoices a).hasOption o.id = true :=
      List.any_eq_true.mpr ⟨o, by simp [withChoices, htype, ho, hattribute], beq_self_eq_true _⟩
    simp only [encodeSingle, show (s.withChoices a).type = .select from htype]
    exact bind_eq_ok_iff.mpr ⟨o.id, hread, if_pos hoption⟩
  | status =>
    rw [htype] at h
    obtain ⟨u, hu, hattribute, rfl⟩ := h
    have hstatus : (s.withChoices a).hasStatus u.id = true :=
      List.any_eq_true.mpr ⟨u, by simp [withChoices, htype, hu, hattribute], beq_self_eq_true _⟩
    simp only [encodeSingle, show (s.withChoices a).type = .status from htype]
    exact bind_eq_ok_iff.mpr ⟨u.id, hread, if_pos hstatus⟩
  | recordReference =>
    simp only [encodeSingle, show (s.withChoices a).type = .recordReference from htype]
    exact bind_eq_ok_iff.mpr ⟨id, hread, rfl⟩
  | actorReference =>
    simp only [encodeSingle, show (s.withChoices a).type = .actorReference from htype]
    exact bind_eq_ok_iff.mpr ⟨id, hread, rfl⟩
  | _ =>
    rw [htype] at hslot
    cases hslot

/-- The sets that are stored of ids are found by each of their members. -/
theorem Reachable.encodeMember_of_idSet (h : s.Reachable) {a : AttributeHead}
    (ha : a ∈ s.attributes) (hslot : a.type.slot = .reference) {table : ValueTable}
    {row : ValueRow} (hrow : row ∈ s.values table) (hid : a.id = row.attributeId) {ids : List Id}
    (hcell : row.cell = idSet ids) {id : Id} (hmem : id ∈ ids) :
    encodeMember (s.withChoices a) (choiceMember id) = .ok (some (choiceMember id)) := by
  have hoffers : s.Offers a id :=
    h.offered table row hrow a ha hid id (hcell ▸ holds_idSet.mpr hmem)
  rw [choiceMember, encodeMember, Json.isBlank_str, id.isBlank_text, if_neg Bool.false_ne_true,
    hoffers.encodeSingle_eq hslot, ok_bind]
  exact bind_eq_ok_iff.mpr ⟨.reference id, decodeSingle_reference hslot id, rfl⟩

/-! ### What is shown -/

theorem Reachable.cellOf?_of_isFor (h : s.Reachable) {a : AttributeHead} (ha : a ∈ s.attributes)
    (table : ValueTable) {row : ValueRow} (hrow : row ∈ s.values table) {owner : Id}
    (hfor : row.isFor owner a.id = true) :
    cellOf? (s.values table) owner a = some row.cell.kept := by
  obtain ⟨rfl, hid⟩ := ValueRow.isFor_iff.mp hfor
  rw [h.sound.indexed.cellOf?_eq hrow hid.symm, (h.readsAs hrow ha hid.symm).read]

theorem single_of_equals {a : AttributeHead} (hequals : Operator.equals ∈ a.operators) :
    ¬ a.isSet = true ∧ a.type.slot ≠ .structured := by
  rw [AttributeHead.operators] at hequals
  split at hequals
  · exact absurd hequals (by decide)
  · refine ⟨‹_›, fun hslot => ?_⟩
    rw [hslot] at hequals
    exact absurd hequals (by decide)

theorem Reachable.findsMembers (h : s.Reachable) {a : AttributeHead} (ha : a ∈ s.attributes)
    (hisSet : a.isSet = true) (table : ValueTable) {row : ValueRow} (hrow : row ∈ s.values table)
    (hid : a.id = row.attributeId) {v : Value}
    (hv : decodeCell (s.withChoices a) row.cell.kept = .ok v) :
    (s.withChoices a).FindsMembers row.cell.kept v := by
  have hset := h.allowsSets a ha hisSet
  rcases ValueType.slot_of_allowsSets hset with hslot | hslot
  · exact findsMembers_of_text hisSet hset hslot hv
  · rcases (h.ofIds_of_row hrow ha hid hslot).2 with ⟨hsingle, -⟩ | ⟨-, ids, -, -, hids⟩
    · cases hsingle.symm.trans hisSet
    · rw [hids, kept_idSet] at hv ⊢
      exact findsMembers_of_idSet hisSet hset hslot
        (fun id hmem => h.encodeMember_of_idSet ha hslot hrow hid hids hmem) hv

/-- What a record shows can be asked for: where values can be compared for equality, the condition
that a value equals what is shown of it selects the record, unless it is a blank text or an instant
within a day that is shown as a date; and of a set the condition that it contains a member that is
shown selects the record just if its type would store that member alike. -/
theorem selects_shown_iff (h : s.Reachable) (setup : Setup) {r : Record} (hr : r ∈ s.records)
    {a : AttributeHead} (ha : a ∈ s.attributes) (hparent : a.parent = .object r.objectId)
    {v : Value} (hv : s.shown? a.parent r.id a.slug = some v) :
    (.equals ∈ a.operators →
      (s.Selects setup r.objectId (.condition a.slug .equals v.toJson) r.id ↔
        ∀ row ∈ s.recordValues, row.isFor r.id a.id = true → a.type.FindsShown row.cell.kept)) ∧
    (a.isSet = true → ∃ members, v = .set members ∧ ∀ m ∈ members,
      (s.Selects setup r.objectId (.condition a.slug .contains m) r.id ↔
        a.type.FindsMember members m)) := by
  obtain ⟨row, hrow, hfor, hdecoded⟩ := (h.shown?_eq_some_iff ha).mp hv
  rw [hparent] at hrow
  have hcell : cellOf? s.recordValues r.id a = some row.cell.kept :=
    h.cellOf?_of_isFor ha .records hrow hfor
  have hid := (ValueRow.isFor_iff.mp hfor).2
  simp only [selects_condition_iff h.sound hr ha hparent, hcell]
  refine ⟨fun hequals => ?_, fun hisSet => ?_⟩
  · obtain ⟨hsingle, hplain⟩ := single_of_equals hequals
    rw [decodeCell_of_single (a := s.withChoices a) hsingle] at hdecoded
    have hslot : (s.withChoices a).slot = (s.withChoices a).type.slot := if_neg hsingle
    rw [accepts_equals_iff_asksFor (a := s.withChoices a) hequals,
      asksFor_shown_iff hslot hplain hdecoded]
    refine ⟨fun hfinds q hq hqfor => ?_, fun hall => hall row hrow hfor⟩
    have hsame := h.cellOf?_of_isFor ha .records hq hqfor
    rw [← Option.some.inj (hcell.symm.trans hsame)]
    exact hfinds
  · exact h.findsMembers ha hisSet .records hrow hid.symm hdecoded

/-! ### A deal that was seen at noon -/

def seenAttribute (type : ValueType) : AttributeHead :=
  ⟨exampleId 1 0, .object (exampleId 0 0), "seen", "Seen", type, .obj [], false, false, false,
    false, 0, ⟨1⟩⟩

/-- Deals with the time at which they were seen, and no deals yet. -/
def seenBase : Store where
  objects := [⟨exampleId 0 0, default, "deals", "Deal", "Deals", none, false, ⟨0⟩⟩]
  attributes := [seenAttribute .timestamp]
  options := []
  statuses := []
  records := []
  lists := []
  entries := []
  recordValues := []
  entryValues := []

def seenRun : List Step := [
  exampleStep 0 (.createObject ⟨default, "deals", "Deal", "Deals", none, false⟩),
  exampleStep 1 (.createAttribute (.plain (.object (exampleId 0 0)) "seen" "Seen" .timestamp))]

theorem run_seenRun : empty.run seenRun = seenBase := by cbv

/-- Noon of the first day of 2024. -/
def noon : Int := 1704110400000000

def seenDeal : Record := ⟨exampleId 2 0, exampleId 0 0, none, ⟨2⟩, none, ⟨2⟩⟩

/-- One deal, which was seen at noon, by a time of the given type. -/
def seenStore (type : ValueType) : Store := { seenBase with
  attributes := [seenAttribute type]
  records := [seenDeal]
  recordValues := [⟨exampleId 2 0, exampleId 1 0, .date noon, none⟩] }

theorem encodeValue_noon : encodeValue (seenBase.withChoices (seenAttribute .timestamp))
    (.str "2024-01-01T12:00:00Z") = .ok (some (.date noon)) :=
  (encodeValue_of_single Bool.false_ne_true (by cbv)).trans (by cbv)

theorem reachable_seenStore : (seenStore .timestamp).Reachable := by
  have hbase : seenBase.Reachable := ⟨seenRun, run_seenRun.symm⟩
  have hattributes : seenBase.attributesOf (.object (exampleId 0 0)) =
      [seenBase.withChoices (seenAttribute .timestamp)] := by cbv
  have hprepared : prepareValues (seenBase.attributesOf (.object (exampleId 0 0)))
      [("seen", .str "2024-01-01T12:00:00Z")] .create =
        .ok ⟨[(seenBase.withChoices (seenAttribute .timestamp), .date noon)], []⟩ := by
    rw [hattributes]
    refine prepareValues_create_one (by cbv) encodeValue_noon rfl fun b hb _ => ?_
    rw [List.mem_singleton.mp hb]
  obtain ⟨answer, hanswer⟩ := exists_perform_createRecord ⟨50, 200, .reject, []⟩
    ⟨⟨2⟩, fun place => exampleId 2 (UInt8.ofNat place)⟩ ⟨exampleId 0 0, _, none⟩
    ⟨_, .head _, rfl⟩ hprepared (List.forall_mem_singleton.mpr rfl)
    fun _ hcleared => by cases hcleared
  exact hbase.perform hanswer

/-- Keeps only the days on which deals were seen. -/
def seenDays : Step := exampleStep 3 (.updateAttribute (exampleId 1 0)
  ⟨none, none, some .date, none, none, none, none, none⟩)

theorem reachable_seenStore_date : (seenStore .date).Reachable := by
  have hok : (seenStore .timestamp).perform seenDays.setup seenDays.stamp seenDays.call =
      .ok (.anAttribute ⟨seenAttribute .date, [], []⟩, seenStore .date) := by cbv
  exact reachable_seenStore.perform hok

theorem shown?_seenStore : (seenStore .timestamp).shown? (.object (exampleId 0 0)) (exampleId 2 0)
    "seen" = some (.date "2024-01-01T12:00:00Z") := by cbv

theorem shown?_seenStore_date : (seenStore .date).shown? (.object (exampleId 0 0)) (exampleId 2 0)
    "seen" = some (.date "2024-01-01") := by cbv

/-- By the time at which it was seen the deal is found. -/
theorem selects_seen : (seenStore .timestamp).Reachable ∧
    (seenStore .timestamp).shown? (.object seenDeal.objectId) seenDeal.id "seen" =
      some (.date "2024-01-01T12:00:00Z") ∧
    (seenStore .timestamp).Selects seenDays.setup seenDeal.objectId
      (.condition "seen" .equals (.str "2024-01-01T12:00:00Z")) seenDeal.id := by
  refine ⟨reachable_seenStore, shown?_seenStore, ?_⟩
  refine ((selects_shown_iff reachable_seenStore seenDays.setup (.head _) (.head _) rfl
    shown?_seenStore).1 (by decide)).mpr fun row hrow _ => ?_
  rw [List.mem_singleton.mp hrow]
  exact fun hdate => nomatch hdate

/-- By the day on which it was seen, which is all that is shown then, it is not. -/
theorem not_selects_seen : (seenStore .date).Reachable ∧ seenDeal ∈ (seenStore .date).records ∧
    (seenStore .date).shown? (.object seenDeal.objectId) seenDeal.id "seen" =
      some (.date "2024-01-01") ∧
    .equals ∈ (seenAttribute .date).operators ∧
    ¬ (seenStore .date).Selects seenDays.setup seenDeal.objectId
      (.condition "seen" .equals (.str "2024-01-01")) seenDeal.id := by
  refine ⟨reachable_seenStore_date, .head _, shown?_seenStore_date, by decide, fun hselects => ?_⟩
  have hcell : cellOf? (seenStore .date).recordValues seenDeal.id (seenAttribute .date) =
      some (.date noon) := rfl
  rw [show "seen" = (seenAttribute .date).slug from rfl,
    selects_condition_iff reachable_seenStore_date.sound (.head _) (.head _) rfl, hcell,
    accepts_equals_iff_asksFor (by decide)] at hselects
  have hformat : Calendar.formatDate noon = .ok "2024-01-01" := by cbv
  exact absurd ((asksFor_date_iff rfl rfl hformat).mp hselects) (by decide)

end Store

end RecordStore
