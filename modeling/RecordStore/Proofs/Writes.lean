import Mathlib.Data.List.Forall2
import RecordStore.Proofs.Calls

/-!
# Values written at once

Values are prepared one after the other and applied one after the other, first those that are set
and then those that are cleared. As they are of different attributes, none gets in the way of
another, and all of it together can be said at once: preparing succeeds just if each value can be
prepared by itself, and applying succeeds just if no key is taken at the start, and puts the new
rows in place of those that the owner had for the same attributes.
-/

namespace RecordStore

/-! ### Lists in step -/

section

variable {α β : Type} {R : α → β → Prop} {l : List α} {l' : List β}

theorem exists_of_mem_left (h : List.Forall₂ R l l') {a : α} (ha : a ∈ l) : ∃ b ∈ l', R a b := by
  induction h with
  | nil => cases ha
  | cons hab _ ih =>
    rcases List.mem_cons.mp ha with rfl | ha
    · exact ⟨_, List.mem_cons_self, hab⟩
    · obtain ⟨b, hb, hR⟩ := ih ha
      exact ⟨b, List.mem_cons_of_mem _ hb, hR⟩

theorem exists_of_mem_right (h : List.Forall₂ R l l') {b : β} (hb : b ∈ l') : ∃ a ∈ l, R a b :=
  exists_of_mem_left (List.Forall₂.flip h) hb

theorem forall₂_and_right {Q : β → Prop} :
    List.Forall₂ (fun a b => R a b ∧ Q b) l l' ↔ List.Forall₂ R l l' ∧ ∀ b ∈ l', Q b := by
  constructor
  · intro h
    refine ⟨h.imp fun _ _ => And.left, fun b hb => ?_⟩
    obtain ⟨a, -, -, hQ⟩ := exists_of_mem_right h hb
    exact hQ
  · rintro ⟨h, hQ⟩
    induction h with
    | nil => exact .nil
    | cons hab _ ih =>
      obtain ⟨hb, hrest⟩ := List.forall_mem_cons.mp hQ
      exact .cons ⟨hab, hb⟩ (ih hrest)

theorem exists_forall₂ (h : ∀ a ∈ l, ∃ b, R a b) : ∃ l', List.Forall₂ R l l' := by
  induction l with
  | nil => exact ⟨[], .nil⟩
  | cons a rest ih =>
    obtain ⟨⟨b, hb⟩, hrest⟩ := List.forall_mem_cons.mp h
    obtain ⟨others, hothers⟩ := ih hrest
    exact ⟨b :: others, .cons hb hothers⟩

theorem pairwise_of_forall₂ {S : α → α → Prop} {T : β → β → Prop} (h : List.Forall₂ R l l')
    (hl : l.Pairwise S) (hS : ∀ {a b a' b'}, R a b → R a' b' → S a a' → T b b') :
    l'.Pairwise T := by
  induction h with
  | nil => exact .nil
  | cons hab hrest ih =>
    obtain ⟨hfirst, hl⟩ := List.pairwise_cons.mp hl
    refine List.pairwise_cons.mpr ⟨fun b' hb' => ?_, ih hl⟩
    obtain ⟨a', ha', hR⟩ := exists_of_mem_right hrest hb'
    exact hS hab hR (hfirst a' ha')

end

/-! ### Preparing -/

/-- The key that stands beside a value. -/
def keyOf (a : Attribute) (cell : Cell) : Option String :=
  if a.isUnique then some cell.canonicalKey else none

theorem storedKeyOf_eq_ok_iff {a : Attribute} {cell : Cell} {key : Option String} :
    storedKeyOf a cell = .ok key ↔
      (a.isUnique = true → cell.canonicalKey.length ≤ 255) ∧ key = keyOf a cell := by
  by_cases hunique : a.isUnique = true
  · simp only [storedKeyOf, keyOf, hunique, if_true, map_eq_ok_iff, uniqueKeyOf_eq_ok, true_imp_iff]
    constructor
    · rintro ⟨k, ⟨hshort, rfl⟩, rfl⟩
      exact ⟨hshort, rfl⟩
    · rintro ⟨hshort, rfl⟩
      exact ⟨_, ⟨hshort, rfl⟩, rfl⟩
  · simp [storedKeyOf, keyOf, hunique, eq_comm]

/-- What a value given by slug is prepared to: an attribute, and a cell unless it is blank. -/
structure Prepares (attributes : List Attribute) (g : String × Json)
    (p : Attribute × Option Cell) : Prop where
  mem : p.1 ∈ attributes
  slug : p.1.slug = g.1
  encoded : encodeValue p.1 g.2 = .ok p.2
  short : p.1.isUnique = true → ∀ c, p.2 = some c → c.canonicalKey.length ≤ 255

section

variable {attributes : List Attribute} {given : List (String × Json)}
  {encoded : List (Attribute × Option Cell)}

theorem encodeAll_cons_eq_ok_iff (hslugs : attributes.Pairwise fun a b => a.slug ≠ b.slug)
    {g : String × Json} :
    encodeAll attributes (g :: given) = .ok encoded ↔
      ∃ p others, Prepares attributes g p ∧ encodeAll attributes given = .ok others ∧
        encoded = p :: others := by
  obtain ⟨slug, raw⟩ := g
  constructor
  · intro h
    rw [encodeAll] at h
    split at h
    · cases h
    rename_i a hfind
    obtain ⟨hmem, hslug⟩ := mem_of_find?_key hfind
    obtain ⟨cell, hcell, h⟩ := bind_eq_ok_iff.mp h
    cases cell with
    | none =>
      obtain ⟨others, hothers, h⟩ := bind_eq_ok_iff.mp h
      cases h
      exact ⟨_, others, ⟨hmem, hslug, hcell, by simp⟩, hothers, rfl⟩
    | some c =>
      obtain ⟨key, hkey, h⟩ := bind_eq_ok_iff.mp h
      obtain ⟨others, hothers, h⟩ := bind_eq_ok_iff.mp h
      cases h
      refine ⟨_, others, ⟨hmem, hslug, hcell, fun hunique d hd => ?_⟩, hothers, rfl⟩
      cases hd
      exact (storedKeyOf_eq_ok_iff.mp hkey).1 hunique
  · rintro ⟨⟨a, cell⟩, others, ⟨hmem, rfl, hcell, hshort⟩, hothers, rfl⟩
    rw [encodeAll, find?_of_pairwise_ne hslugs hmem]
    refine bind_eq_ok_iff.mpr ⟨cell, hcell, ?_⟩
    cases cell with
    | none => exact bind_eq_ok_iff.mpr ⟨others, hothers, rfl⟩
    | some c =>
      have hkey := storedKeyOf_eq_ok_iff.mpr ⟨fun hunique => hshort hunique c rfl, rfl⟩
      exact bind_eq_ok_iff.mpr ⟨_, hkey, bind_eq_ok_iff.mpr ⟨others, hothers, rfl⟩⟩

theorem encodeAll_eq_ok_iff (hslugs : attributes.Pairwise fun a b => a.slug ≠ b.slug) :
    encodeAll attributes given = .ok encoded ↔
      List.Forall₂ (Prepares attributes) given encoded := by
  induction given generalizing encoded with
  | nil =>
    rw [encodeAll, List.forall₂_nil_left_iff, Except.ok.injEq]
    exact eq_comm
  | cons g rest ih =>
    rw [encodeAll_cons_eq_ok_iff hslugs, List.forall₂_cons_left_iff]
    simp only [ih]

/-- What is to be stored of prepared values. -/
def setsOf (encoded : List (Attribute × Option Cell)) : List (Attribute × Cell) :=
  encoded.filterMap fun p => p.2.map fun c => (p.1, c)

/-- What is to be cleared of prepared values. -/
def clearsOf (encoded : List (Attribute × Option Cell)) : List Attribute :=
  encoded.filterMap fun p => if p.2.isNone then some p.1 else none

theorem mem_setsOf {a : Attribute} {c : Cell} : (a, c) ∈ setsOf encoded ↔ (a, some c) ∈ encoded := by
  simp only [setsOf, List.mem_filterMap, Option.map_eq_some_iff, Prod.mk.injEq]
  constructor
  · rintro ⟨⟨b, cell⟩, hmem, d, rfl, rfl, rfl⟩
    exact hmem
  · exact fun hmem => ⟨_, hmem, c, rfl, rfl, rfl⟩

theorem mem_clearsOf {a : Attribute} : a ∈ clearsOf encoded ↔ (a, none) ∈ encoded := by
  simp only [clearsOf, List.mem_filterMap]
  constructor
  · rintro ⟨⟨b, cell⟩, hmem, hcleared⟩
    cases cell <;> cases hcleared
    exact hmem
  · exact fun hmem => ⟨_, hmem, rfl⟩

theorem prepareValues_update_eq_ok_iff (hslugs : attributes.Pairwise fun a b => a.slug ≠ b.slug)
    {prepared : Prepared} :
    prepareValues attributes given .update = .ok prepared ↔
      ∃ encoded, List.Forall₂ (Prepares attributes) given encoded ∧
        (∀ p ∈ encoded, p.1.isRequired = true → p.2 ≠ none) ∧
        prepared = ⟨setsOf encoded, clearsOf encoded⟩ := by
  rw [prepareValues, bind_eq_ok_iff]
  refine exists_congr fun encoded => and_congr (encodeAll_eq_ok_iff hslugs) ?_
  have hkept : (∀ p ∈ encoded, p.1.isRequired = true → p.2 ≠ none) ↔
      ∀ a ∈ clearsOf encoded, ¬ a.isRequired = true := by
    constructor
    · exact fun h a ha hrequired => h _ (mem_clearsOf.mp ha) hrequired rfl
    · rintro h ⟨a, cell⟩ hp hrequired rfl
      exact h a (mem_clearsOf.mpr hp) hrequired
  rw [hkept, ← List.find?_eq_none (l := clearsOf encoded)]
  constructor
  · intro h
    dsimp only at h
    split at h
    · cases h
    · cases h
      exact ⟨‹_›, rfl⟩
  · rintro ⟨hnone, rfl⟩
    rw [clearsOf] at hnone
    dsimp only
    rw [hnone]
    rfl

/-- What something new is given is prepared as a change of it would be, but nothing is cleared. -/
theorem exists_of_prepareValues_create (hslugs : attributes.Pairwise fun a b => a.slug ≠ b.slug)
    {prepared : Prepared} (h : prepareValues attributes given .create = .ok prepared) :
    ∃ encoded, List.Forall₂ (Prepares attributes) given encoded ∧
      prepared = ⟨setsOf encoded, []⟩ := by
  obtain ⟨encoded, hencoded, h⟩ := bind_eq_ok_iff.mp h
  refine ⟨encoded, (encodeAll_eq_ok_iff hslugs).mp hencoded, ?_⟩
  dsimp only at h
  split at h
  · cases h
  · cases h
    rfl

end

/-! ### Applying -/

def newRow (owner : Id) (p : Attribute × Cell) : ValueRow :=
  ⟨owner, p.1.id, p.2, keyOf p.1 p.2⟩

theorem isFor_newRow_iff {owner id : Id} {p : Attribute × Cell} :
    (newRow owner p).isFor owner id = true ↔ p.1.id = id := by
  simp [ValueRow.isFor_iff, newRow]

/-- Rows with those of an owner for some attributes replaced. -/
def replaceRows (owner : Id) (ids : List Id) (rows new : List ValueRow) : List ValueRow :=
  (rows.filter fun r => !ids.any fun id => r.isFor owner id) ++ new

theorem keyTaken_eq_false_iff {rows : List ValueRow} {owner id : Id} {key : Option String} :
    keyTaken rows owner id key = false ↔ ∀ k, key = some k → ∀ r ∈ rows, r.attributeId = id →
      r.uniqueKey = some k → r.owner = owner := by
  cases key with
  | none => simp [keyTaken]
  | some k => simp [keyTaken]

theorem keyTaken_keyOf_iff {rows : List ValueRow} {owner id : Id} {a : Attribute} {c : Cell} :
    keyTaken rows owner id (keyOf a c) = false ↔ (a.isUnique = true → ∀ row ∈ rows,
      row.attributeId = id → row.uniqueKey = some c.canonicalKey → row.owner = owner) := by
  rw [keyTaken_eq_false_iff, keyOf]
  by_cases hunique : a.isUnique = true <;> simp [hunique]

/-- Only the rows of others can take a key. -/
theorem keyTaken_congr {rows rows' : List ValueRow} {owner : Id}
    (h : ∀ r, r.owner ≠ owner → (r ∈ rows ↔ r ∈ rows')) (id : Id) (key : Option String) :
    keyTaken rows owner id key = keyTaken rows' owner id key := by
  rw [Bool.eq_iff_iff, ← not_iff_not, Bool.not_eq_true, Bool.not_eq_true, keyTaken_eq_false_iff,
    keyTaken_eq_false_iff]
  refine forall₂_congr fun k _ => forall_congr' fun r => ?_
  by_cases howner : r.owner = owner
  · simp [howner]
  · rw [h r howner]

theorem keyTaken_upsertRow {row : ValueRow} {rows : List ValueRow} (id : Id)
    (key : Option String) :
    keyTaken (upsertRow row rows) row.owner id key = keyTaken rows row.owner id key := by
  refine keyTaken_congr (fun r howner => ?_) id key
  rw [mem_upsertRow]
  constructor
  · rintro (rfl | ⟨hr, -⟩)
    · exact absurd rfl howner
    · exact hr
  · exact fun hr => .inr ⟨hr, Bool.eq_false_iff.mpr fun hfor =>
      howner (ValueRow.isFor_iff.mp hfor).1⟩

theorem mem_replaceRows {owner : Id} {ids : List Id} {rows new : List ValueRow} {r : ValueRow} :
    r ∈ replaceRows owner ids rows new ↔
      (r ∈ rows ∧ ∀ id ∈ ids, r.isFor owner id = false) ∨ r ∈ new := by
  simp [replaceRows]

theorem replaceRows_dropRow {owner id : Id} {ids : List Id} {rows new : List ValueRow} :
    replaceRows owner ids (dropRow owner id rows) new =
      replaceRows owner (id :: ids) rows new := by
  simp [replaceRows, dropRow, List.filter_filter, Bool.and_comm]

theorem replaceRows_upsertRow {row : ValueRow} {ids : List Id} {rows new : List ValueRow}
    (hne : ∀ id ∈ ids, row.attributeId ≠ id) :
    replaceRows row.owner ids (upsertRow row rows) new =
      replaceRows row.owner (row.attributeId :: ids) rows (row :: new) := by
  have hstays : ([row].filter fun r => !ids.any fun id => r.isFor row.owner id) = [row] := by
    simpa [ValueRow.isFor] using hne
  rw [← replaceRows_dropRow, replaceRows, upsertRow, List.filter_append, hstays, replaceRows,
    dropRow, List.append_assoc, List.singleton_append]

theorem replaceRows_nil (owner : Id) (rows : List ValueRow) :
    replaceRows owner [] rows [] = rows := by
  simp [replaceRows]

/-- Rows with prepared values of an owner in place of those it had for the same attributes. -/
def rewritten (owner : Id) (encoded : List (Attribute × Option Cell)) (rows : List ValueRow) :
    List ValueRow :=
  replaceRows owner (encoded.map fun p => p.1.id) rows ((setsOf encoded).map (newRow owner))

section

variable {encoded : List (Attribute × Option Cell)} {owner : Id} {rows : List ValueRow}

theorem mem_rewritten {row : ValueRow} :
    row ∈ rewritten owner encoded rows ↔
      (row ∈ rows ∧ ∀ p ∈ encoded, row.isFor owner p.1.id = false) ∨
        ∃ a c, (a, some c) ∈ encoded ∧ row = newRow owner (a, c) := by
  rw [rewritten, mem_replaceRows, List.forall_mem_map, List.mem_map]
  refine or_congr_right ⟨?_, ?_⟩
  · rintro ⟨⟨a, c⟩, hset, rfl⟩
    exact ⟨a, c, mem_setsOf.mp hset, rfl⟩
  · rintro ⟨a, c, hset, rfl⟩
    exact ⟨(a, c), mem_setsOf.mpr hset, rfl⟩

theorem pairwise_setsOf (hids : encoded.Pairwise fun p q => p.1.id ≠ q.1.id) :
    (setsOf encoded).Pairwise fun p q => p.1.id ≠ q.1.id := by
  refine List.Pairwise.filterMap _ ?_ hids
  rintro ⟨a, cell⟩ ⟨b, other⟩ hne p hp q hq
  obtain ⟨c, -, rfl⟩ := Option.map_eq_some_iff.mp hp
  obtain ⟨d, -, rfl⟩ := Option.map_eq_some_iff.mp hq
  exact hne

/-- To set some values and then to clear others is to replace the rows of all of them. -/
theorem replaceRows_setsOf (hids : encoded.Pairwise fun p q => p.1.id ≠ q.1.id) :
    replaceRows owner ((clearsOf encoded).map fun a => a.id)
        (replaceRows owner ((setsOf encoded).map fun p => p.1.id) rows
          ((setsOf encoded).map (newRow owner))) [] = rewritten owner encoded rows := by
  have hnew : ((setsOf encoded).map (newRow owner)).filter
      (fun r => !((clearsOf encoded).map fun a => a.id).any fun id => r.isFor owner id) =
        (setsOf encoded).map (newRow owner) := by
    refine List.filter_eq_self.mpr fun r hr => ?_
    obtain ⟨⟨a, c⟩, hset, rfl⟩ := List.mem_map.mp hr
    simp only [List.any_map, Bool.not_eq_true', List.any_eq_false]
    intro b hclear hfor
    have hid : a.id = b.id := (ValueRow.isFor_iff.mp hfor).2
    cases eq_of_pairwise_ne hids (mem_setsOf.mp hset) (mem_clearsOf.mp hclear) hid
  have hrows : ∀ r : ValueRow, ((!((clearsOf encoded).map fun a => a.id).any fun id =>
      r.isFor owner id) && !((setsOf encoded).map fun p => p.1.id).any fun id =>
        r.isFor owner id) = !(encoded.map fun p => p.1.id).any fun id => r.isFor owner id := by
    intro r
    rw [← Bool.not_or, Bool.not_inj_iff, Bool.eq_iff_iff, Bool.or_eq_true, List.any_map,
      List.any_map, List.any_map, List.any_eq_true, List.any_eq_true, List.any_eq_true]
    constructor
    · rintro (⟨a, ha, hfor⟩ | ⟨⟨a, c⟩, ha, hfor⟩)
      · exact ⟨_, mem_clearsOf.mp ha, hfor⟩
      · exact ⟨_, mem_setsOf.mp ha, hfor⟩
    · rintro ⟨⟨a, _ | c⟩, hmem, hfor⟩
      · exact .inl ⟨a, mem_clearsOf.mpr hmem, hfor⟩
      · exact .inr ⟨(a, c), mem_setsOf.mpr hmem, hfor⟩
  simp only [replaceRows, rewritten, List.filter_append, List.filter_filter, hrows, hnew,
    List.append_nil]

/-- What was written once is written again without a difference. -/
theorem rewritten_rewritten (owner : Id) (encoded : List (Attribute × Option Cell))
    (rows : List ValueRow) :
    rewritten owner encoded (rewritten owner encoded rows) = rewritten owner encoded rows := by
  have hnone : ((setsOf encoded).map (newRow owner)).filter
      (fun r => !(encoded.map fun p => p.1.id).any fun id => r.isFor owner id) = [] := by
    refine List.filter_eq_nil_iff.mpr fun r hr => ?_
    obtain ⟨⟨a, c⟩, hset, rfl⟩ := List.mem_map.mp hr
    rw [Bool.not_eq_true', Bool.not_eq_false, List.any_map, List.any_eq_true]
    exact ⟨_, mem_setsOf.mp hset, ValueRow.isFor_iff.mpr ⟨rfl, rfl⟩⟩
  simp only [rewritten, replaceRows, List.filter_append, List.filter_filter, Bool.and_self, hnone,
    List.append_nil]

end

namespace Session

variable {s t : Store} {table : ValueTable} {owner : Id}

theorem run_storeValue_eq_ok_iff {a : Attribute} {cell : Cell} :
    (storeValue table owner a cell).run s = .ok () t ↔
      (a.isUnique = true → cell.canonicalKey.length ≤ 255) ∧
      keyTaken (s.values table) owner a.id (keyOf a cell) = false ∧
      t = s.setValues table (upsertRow (newRow owner (a, cell)) (s.values table)) := by
  rw [storeValue, run_liftM_bind_eq_ok]
  constructor
  · rintro ⟨key, hkey, h⟩
    obtain ⟨hshort, rfl⟩ := storedKeyOf_eq_ok_iff.mp hkey
    obtain ⟨_, hfree, hwrite⟩ := run_liftM_bind_eq_ok.mp (run_get_bind_eq_ok.mp h)
    exact ⟨hshort, require_eq_ok_iff.mp hfree, (run_write_eq_ok.mp hwrite).2⟩
  · rintro ⟨hshort, hfree, rfl⟩
    refine ⟨_, storedKeyOf_eq_ok_iff.mpr ⟨hshort, rfl⟩, run_get_bind_eq_ok.mpr ?_⟩
    exact run_liftM_bind_eq_ok.mpr
      ⟨(), require_eq_ok_iff.mpr hfree, run_write_eq_ok.mpr ⟨hfree, rfl⟩⟩

theorem run_storeValues_eq_ok_iff {sets : List (Attribute × Cell)}
    (hids : sets.Pairwise fun p q => p.1.id ≠ q.1.id) :
    (storeValues table owner sets).run s = .ok () t ↔
      (∀ p ∈ sets, (p.1.isUnique = true → p.2.canonicalKey.length ≤ 255) ∧
        keyTaken (s.values table) owner p.1.id (keyOf p.1 p.2) = false) ∧
      t = s.setValues table (replaceRows owner (sets.map fun p => p.1.id) (s.values table)
        (sets.map (newRow owner))) := by
  induction sets generalizing s with
  | nil =>
    have hrun : (storeValues table owner []).run s = .ok () s := rfl
    rw [hrun, List.map_nil, List.map_nil, replaceRows_nil, Store.setValues_values]
    exact ⟨fun h => by cases h; simp, fun h => by rw [h.2]⟩
  | cons p rest ih =>
    obtain ⟨hne, hrest⟩ := List.pairwise_cons.mp hids
    -- what is stored for one attribute takes no key from the others, and stays where it is
    have hkeys : ∀ id key, keyTaken (upsertRow (newRow owner p) (s.values table)) owner id key =
        keyTaken (s.values table) owner id key := keyTaken_upsertRow
    have hrows : replaceRows owner (rest.map fun q => q.1.id)
        (upsertRow (newRow owner p) (s.values table)) (rest.map (newRow owner)) =
          replaceRows owner (p.1.id :: rest.map fun q => q.1.id) (s.values table)
            (newRow owner p :: rest.map (newRow owner)) := by
      have hids : ∀ id ∈ rest.map fun q => q.1.id, (newRow owner p).attributeId ≠ id := by
        intro id hid
        obtain ⟨q, hq, rfl⟩ := List.mem_map.mp hid
        exact hne q hq
      exact replaceRows_upsertRow hids
    rw [List.map_cons, List.map_cons, ← hrows]
    rw [storeValues, run_bind_eq_ok]
    constructor
    · rintro ⟨_, u, hp, h⟩
      obtain ⟨hshort, hfree, rfl⟩ := run_storeValue_eq_ok_iff.mp hp
      obtain ⟨hothers, rfl⟩ := (ih hrest).mp h
      simp only [Store.values_setValues, hkeys] at hothers
      rw [Store.values_setValues, Store.setValues_setValues]
      exact ⟨List.forall_mem_cons.mpr ⟨⟨hshort, hfree⟩, hothers⟩, rfl⟩
    · rintro ⟨hall, rfl⟩
      obtain ⟨⟨hshort, hfree⟩, hothers⟩ := List.forall_mem_cons.mp hall
      refine ⟨(), _, run_storeValue_eq_ok_iff.mpr ⟨hshort, hfree, rfl⟩, (ih hrest).mpr ⟨?_, ?_⟩⟩
      · simpa only [Store.values_setValues, hkeys] using hothers
      · rw [Store.values_setValues, Store.setValues_setValues]

theorem run_clearValues_eq_ok_iff {clears : List Attribute} :
    (clearValues table owner clears).run s = .ok () t ↔
      t = s.setValues table (replaceRows owner (clears.map fun a => a.id) (s.values table) []) := by
  induction clears generalizing s with
  | nil =>
    have hrun : (clearValues table owner []).run s = .ok () s := rfl
    rw [hrun, List.map_nil, replaceRows_nil, Store.setValues_values]
    exact ⟨fun h => by cases h; rfl, fun h => by rw [h]⟩
  | cons a rest ih =>
    have hrun : (clearValues table owner (a :: rest)).run s =
        (clearValues table owner rest).run (s.setValues table (dropRow owner a.id (s.values table))) :=
      rfl
    rw [hrun, ih, Store.values_setValues, Store.setValues_setValues, replaceRows_dropRow,
      List.map_cons]

/-- Prepared values of different attributes are applied just if no key is taken. -/
theorem run_applyValues_eq_ok_iff {encoded : List (Attribute × Option Cell)}
    (hids : encoded.Pairwise fun p q => p.1.id ≠ q.1.id) :
    (applyValues table owner ⟨setsOf encoded, clearsOf encoded⟩).run s = .ok () t ↔
      (∀ p ∈ setsOf encoded, (p.1.isUnique = true → p.2.canonicalKey.length ≤ 255) ∧
        keyTaken (s.values table) owner p.1.id (keyOf p.1 p.2) = false) ∧
      t = s.setValues table (rewritten owner encoded (s.values table)) := by
  have hsets := pairwise_setsOf hids
  rw [applyValues, run_bind_eq_ok]
  constructor
  · rintro ⟨_, u, hstore, hclear⟩
    obtain ⟨hall, rfl⟩ := (run_storeValues_eq_ok_iff hsets).mp hstore
    have ht := run_clearValues_eq_ok_iff.mp hclear
    rw [Store.values_setValues, Store.setValues_setValues, replaceRows_setsOf hids] at ht
    exact ⟨hall, ht⟩
  · rintro ⟨hall, rfl⟩
    refine ⟨(), _, (run_storeValues_eq_ok_iff hsets).mpr ⟨hall, rfl⟩, ?_⟩
    rw [run_clearValues_eq_ok_iff, Store.values_setValues, Store.setValues_setValues,
      replaceRows_setsOf hids]

end Session

/-! ### What is written -/

/-- Of the attributes of values given by slug an owner has just those that are not blank. -/
structure Holds (attributes : List Attribute) (given : List (String × Json)) (owner : Id)
    (rows : List ValueRow) : Prop where
  set : ∀ g ∈ given, ∀ a ∈ attributes, a.slug = g.1 → ∀ c, encodeValue a g.2 = .ok (some c) →
    ∀ row, row ∈ rows ∧ row.isFor owner a.id = true ↔ row = newRow owner (a, c)
  cleared : ∀ g ∈ given, ∀ a ∈ attributes, a.slug = g.1 → encodeValue a g.2 = .ok none →
    ∀ row ∈ rows, row.isFor owner a.id = false

/-- Rows after values given by slug were written for an owner: it holds them, and all rows that are
not for it and one of their attributes are as before. -/
structure Written (attributes : List Attribute) (given : List (String × Json)) (owner : Id)
    (before after : List ValueRow) : Prop extends Holds attributes given owner after where
  others : ∀ row, (∀ g ∈ given, ∀ a ∈ attributes, a.slug = g.1 → row.isFor owner a.id = false) →
    (row ∈ after ↔ row ∈ before)

theorem Holds.mono {attributes : List Attribute} {given given' : List (String × Json)} {owner : Id}
    {rows : List ValueRow} (h : Holds attributes given owner rows) (hsub : given' ⊆ given) :
    Holds attributes given' owner rows :=
  ⟨fun g hg => h.set g (hsub hg), fun g hg => h.cleared g (hsub hg)⟩

/-- What an owner has stays while values of other names are written for it. -/
theorem Written.holds {attributes : List Attribute} {given given' : List (String × Json)}
    {owner : Id} {before after : List ValueRow} (h : Written attributes given' owner before after)
    (hids : attributes.Pairwise fun a b => a.id ≠ b.id)
    (hnames : ∀ g ∈ given, ∀ g' ∈ given', g.1 ≠ g'.1)
    (hholds : Holds attributes given owner before) : Holds attributes given owner after := by
  have hsame : ∀ g ∈ given, ∀ a ∈ attributes, a.slug = g.1 → ∀ row : ValueRow,
      row.isFor owner a.id = true → (row ∈ after ↔ row ∈ before) := by
    intro g hg a ha hslug row hfor
    refine h.others row fun g' hg' b hb hslug' => Bool.eq_false_iff.mpr fun hfor' => ?_
    have hid : a.id = b.id :=
      (ValueRow.isFor_iff.mp hfor).2.symm.trans (ValueRow.isFor_iff.mp hfor').2
    have heq : a = b := eq_of_pairwise_ne hids ha hb hid
    exact hnames g hg g' hg' (by rw [← hslug, ← hslug', heq])
  refine ⟨fun g hg a ha hslug c hc row => ?_, fun g hg a ha hslug hc row hrow => ?_⟩
  · rw [← hholds.set g hg a ha hslug c hc row]
    exact and_congr_left fun hfor => hsame g hg a ha hslug row hfor
  · refine Bool.eq_false_iff.mpr fun hfor => ?_
    have hnone := hholds.cleared g hg a ha hslug hc row ((hsame g hg a ha hslug row hfor).mp hrow)
    rw [hfor] at hnone
    cases hnone

section

variable {attributes : List Attribute} {given : List (String × Json)}
  {encoded : List (Attribute × Option Cell)} (hslugs : attributes.Pairwise fun a b => a.slug ≠ b.slug)
  (hids : attributes.Pairwise fun a b => a.id ≠ b.id)
  (hgiven : given.Pairwise fun g g' => g.1 ≠ g'.1)
  (h : List.Forall₂ (Prepares attributes) given encoded)

include hids hgiven h

theorem pairwise_encoded : encoded.Pairwise fun p q => p.1.id ≠ q.1.id := by
  refine pairwise_of_forall₂ h hgiven fun {g p g' q} hp hq hne hid => hne ?_
  have heq : p.1 = q.1 := eq_of_pairwise_ne hids hp.mem hq.mem hid
  rw [← hp.slug, ← hq.slug, heq]

include hslugs

/-- What is prepared of a given value is all that is prepared for its attribute. -/
theorem eq_of_prepares {g : String × Json} (hg : g ∈ given) {a : Attribute} (ha : a ∈ attributes)
    (hslug : a.slug = g.1) {cell : Option Cell} (hcell : encodeValue a g.2 = .ok cell)
    {p : Attribute × Option Cell} : p ∈ encoded ∧ p.1.id = a.id ↔ p = (a, cell) := by
  obtain ⟨q, hq, hprepares⟩ := exists_of_mem_left h hg
  have hattribute : q.1 = a :=
    eq_of_pairwise_ne hslugs hprepares.mem ha (hprepares.slug.trans hslug.symm)
  have hq' : q = (a, cell) := by
    have hencoded := hprepares.encoded
    rw [hattribute, hcell, Except.ok.injEq] at hencoded
    exact Prod.ext hattribute hencoded.symm
  constructor
  · rintro ⟨hp, hid⟩
    rw [eq_of_pairwise_ne (pairwise_encoded hids hgiven h) hp hq (by rw [hid, hattribute]), hq']
  · rintro rfl
    exact ⟨hq' ▸ hq, rfl⟩

theorem written_rewritten (owner : Id) (rows : List ValueRow) :
    Written attributes given owner rows (rewritten owner encoded rows) := by
  refine ⟨⟨fun g hg a ha hslug c hc row => ?_, fun g hg a ha hslug hc row hmem => ?_⟩,
    fun row hothers => ?_⟩
  · have hprepared := fun p => eq_of_prepares hslugs hids hgiven h hg ha hslug hc (p := p)
    constructor
    · rintro ⟨hmem, hfor⟩
      rcases mem_rewritten.mp hmem with ⟨-, hnone⟩ | ⟨b, d, hset, rfl⟩
      · have hfalse := hnone _ ((hprepared _).mpr rfl).1
        rw [hfor] at hfalse
        cases hfalse
      · cases (hprepared (b, some d)).mp ⟨hset, isFor_newRow_iff.mp hfor⟩
        rfl
    · rintro rfl
      have hset := ((hprepared (a, some c)).mpr rfl).1
      exact ⟨mem_rewritten.mpr (.inr ⟨a, c, hset, rfl⟩), isFor_newRow_iff.mpr rfl⟩
  · have hprepared := fun p => eq_of_prepares hslugs hids hgiven h hg ha hslug hc (p := p)
    rcases mem_rewritten.mp hmem with ⟨-, hnone⟩ | ⟨b, d, hset, rfl⟩
    · exact hnone _ ((hprepared _).mpr rfl).1
    · refine Bool.eq_false_iff.mpr fun hfor => ?_
      cases (hprepared (b, some d)).mp ⟨hset, isFor_newRow_iff.mp hfor⟩
  · have hnone : ∀ p ∈ encoded, row.isFor owner p.1.id = false := by
      intro p hp
      obtain ⟨g, hg, hprepares⟩ := exists_of_mem_right h hp
      exact hothers g hg p.1 hprepares.mem hprepares.slug
    rw [mem_rewritten]
    constructor
    · rintro (⟨hmem, -⟩ | ⟨b, d, hset, rfl⟩)
      · exact hmem
      · exact absurd (isFor_newRow_iff.mpr rfl) (Bool.eq_false_iff.mp (hnone _ hset))
    · exact fun hmem => .inl ⟨hmem, hnone⟩

end

end RecordStore
