import Mathlib
import RecordStore.Proofs.Spellings
import RecordStore.Store.Tables

/-!
# JSON text read back

Sets and settings are kept as the compact text of a value, and a configuration as its indented text.
Both spell the value. Main statement: a value in key order whose numbers are integers of 64 bits is
read back from its text.
-/

namespace RecordStore

/-! ### Key order -/

theorem insertKey_of_forall_lt {α : Type} {key : String} {done : List (String × α)}
    (h : ∀ p ∈ done, p.1 < key) (value : α) :
    insertKey key value done = done ++ [(key, value)] := by
  induction done with
  | nil => rfl
  | cons p rest ih =>
    obtain ⟨hp, hrest⟩ := List.forall_mem_cons.mp h
    rw [insertKey, if_neg hp.not_gt, if_neg hp.ne', ih hrest, List.cons_append]

/-- Pairs in the order of their keys are put one after the other. -/
theorem foldl_insertKey_of_pairwise_lt {α : Type} {pairs done : List (String × α)}
    (h : (done ++ pairs).Pairwise fun p q => p.1 < q.1) :
    pairs.foldl (fun done p => insertKey p.1 p.2 done) done = done ++ pairs := by
  induction pairs generalizing done with
  | nil => simp
  | cons p rest ih =>
    have hp : ∀ q ∈ done, q.1 < p.1 := fun q hq =>
      (List.pairwise_append.mp h).2.2 q hq p List.mem_cons_self
    rw [List.append_cons] at h ⊢
    rw [List.foldl_cons, insertKey_of_forall_lt hp, ih h]

theorem orderKeys_of_pairwise_lt {α : Type} {pairs : List (String × α)}
    (h : pairs.Pairwise fun p q => p.1 < q.1) : orderKeys pairs = pairs := by
  rw [orderKeys, foldl_insertKey_of_pairwise_lt (by rwa [List.nil_append]), List.nil_append]

namespace Json

mutual

/-- Every object in the value holds its members in the order of their keys, each key once. -/
def InOrder : Json → Prop
  | .arr items => ItemsInOrder items
  | .obj members => (members.Pairwise fun p q => p.1 < q.1) ∧ MembersInOrder members
  | _ => True

def ItemsInOrder : List Json → Prop
  | [] => True
  | item :: rest => InOrder item ∧ ItemsInOrder rest

def MembersInOrder : List (String × Json) → Prop
  | [] => True
  | (_, value) :: rest => InOrder value ∧ MembersInOrder rest

end

mutual

/-- What is spelt has its value again, if the bound on its depth leaves room for the text. -/
theorem value?_written : (j : Json) → j.InOrder → ∀ {depth : Nat}, j.chars.length ≤ depth →
    (written j).value? depth = some j
  | .null, _, _, _ | .bool _, _, _, _ | .int _, _, _, _ | .float _, _, _, _ => by
    rw [written, Written.value?]
  | .str _, _, _, _ => by
    rw [written, Written.value?]
    rfl
  | .arr items, horder, depth, hdepth => by
    rw [chars, List.length_cons] at hdepth
    obtain ⟨depth, rfl⟩ : ∃ d, depth = d + 1 := ⟨depth - 1, by omega⟩
    have hitems : (moreItemsChars items).length ≤ depth + 1 := by
      cases items <;> simp only [itemsChars, moreItemsChars, List.length_cons] at hdepth ⊢ <;> omega
    rw [written, Written.value?, itemValues?_written items horder hitems, Option.map_some]
  | .obj members, horder, depth, hdepth => by
    rw [chars, List.length_cons] at hdepth
    obtain ⟨depth, rfl⟩ : ∃ d, depth = d + 1 := ⟨depth - 1, by omega⟩
    have hmembers : (moreMembersChars members).length ≤ depth + 1 := by
      cases members <;>
        simp only [membersChars, moreMembersChars, List.length_cons] at hdepth ⊢ <;> omega
    rw [written, Written.value?, memberValues?_written members horder.2 hmembers, Option.map_some,
      orderKeys_of_pairwise_lt horder.1]

theorem itemValues?_written : (items : List Json) → ItemsInOrder items → ∀ {depth : Nat},
    (moreItemsChars items).length ≤ depth + 1 →
      Written.itemValues? depth (writtenItems items) = some items
  | [], _, _, _ => by rw [writtenItems, Written.itemValues?]
  | item :: rest, horder, depth, hdepth => by
    rw [moreItemsChars, List.length_cons, List.length_append] at hdepth
    rw [writtenItems, Written.itemValues?, value?_written item horder.1 (by omega),
      itemValues?_written rest horder.2 (by omega)]
    rfl

theorem memberValues?_written : (members : List (String × Json)) → MembersInOrder members →
    ∀ {depth : Nat}, (moreMembersChars members).length ≤ depth + 1 →
      Written.memberValues? depth (writtenMembers members) = some members
  | [], _, _, _ => by rw [writtenMembers, Written.memberValues?]
  | (key, value) :: rest, horder, depth, hdepth => by
    rw [moreMembersChars, List.length_cons, List.length_append, List.length_cons,
      List.length_append] at hdepth
    rw [writtenMembers, Written.memberValues?, value?_written value horder.1 (by omega),
      memberValues?_written rest horder.2 (by omega)]
    rfl

end

/-! ### Texts -/

theorem chars_int (n : Int) : (int n).chars = intChars n := by simp [chars, scalarChars]

theorem chars_str (s : String) : (str s).chars = quote s := by simp [chars, scalarChars]

mutual

/-- The compact text spells a value without blanks. -/
theorem spells_chars : (j : Json) → j.IsWhole → Spells j j.chars
  | .null, _ => .null
  | .bool true, _ => .bool true
  | .bool false, _ => .bool false
  | .int n, h => chars_int n ▸ .int h
  | .float d, h => h.elim
  | .str s, _ => chars_str s ▸ .str s
  | .arr [], _ => .arrNil blanks_nil
  | .arr (item :: rest), h => by
    rw [chars, itemsChars]
    exact .arr blanks_nil (spells_chars item h.1) (spellsItems_chars rest h.2)
  | .obj [], _ => .objNil blanks_nil
  | .obj ((key, value) :: rest), h => by
    have hmember : SpellsMember (key, value) (quote key ++ ':' :: chars value) :=
      .mk blanks_nil blanks_nil (spells_chars value h.1)
    have hobj := Spells.obj blanks_nil hmember (spellsMembers_chars rest h.2)
    rw [chars, membersChars]
    simpa using hobj

theorem spellsItems_chars : (items : List Json) → WholeItems items →
    SpellsItems items (moreItemsChars items)
  | [], _ => .nil blanks_nil
  | item :: rest, h => by
    rw [moreItemsChars]
    exact .cons blanks_nil blanks_nil (spells_chars item h.1) (spellsItems_chars rest h.2)

theorem spellsMembers_chars : (members : List (String × Json)) → WholeMembers members →
    SpellsMembers members (moreMembersChars members)
  | [], _ => .nil blanks_nil
  | (key, value) :: rest, h => by
    have hmember : SpellsMember (key, value) (quote key ++ ':' :: chars value) :=
      .mk blanks_nil blanks_nil (spells_chars value h.1)
    have hcons := SpellsMembers.cons blanks_nil blanks_nil hmember (spellsMembers_chars rest h.2)
    rw [moreMembersChars]
    simpa using hcons

end

theorem blanks_newline (level : Nat) : Blanks (newline level) := by
  intro c hc
  rcases List.mem_cons.mp hc with rfl | hc
  · rfl
  · rw [List.eq_of_mem_replicate hc]
    rfl

theorem blanks_space : Blanks [' '] := by
  intro c hc
  rw [List.mem_singleton.mp hc]
  rfl

mutual

/-- The indented text spells a value with line breaks before items and members, and with a blank
after each colon. -/
theorem spells_indentedChars (level : Nat) : (j : Json) → j.IsWhole →
    Spells j (indentedChars level j)
  | .null, _ => .null
  | .bool true, _ => .bool true
  | .bool false, _ => .bool false
  | .int n, h => by
    rw [indentedChars, scalarChars]
    · exact .int h
    all_goals nofun
  | .float d, h => h.elim
  | .str s, _ => by
    rw [indentedChars, scalarChars]
    · exact .str s
    all_goals nofun
  | .arr [], _ => .arrNil blanks_nil
  | .arr (item :: rest), h => by
    rw [indentedChars, List.append_assoc]
    exact .arr (blanks_newline _) (spells_indentedChars _ item h.1)
      (spellsItems_indented level rest h.2)
  | .obj [], _ => .objNil blanks_nil
  | .obj ((key, value) :: rest), h => by
    have hmember : SpellsMember (key, value)
        (quote key ++ ':' :: ' ' :: indentedChars (level + 1) value) :=
      .mk blanks_nil blanks_space (spells_indentedChars _ value h.1)
    have hobj := Spells.obj (blanks_newline (level + 1)) hmember
      (spellsMembers_indented level rest h.2)
    rw [indentedChars]
    simpa using hobj

theorem spellsItems_indented (level : Nat) : (items : List Json) → WholeItems items →
    SpellsItems items (moreIndentedItems level items)
  | [], _ => .nil (blanks_newline level)
  | item :: rest, h => by
    rw [moreIndentedItems, List.append_assoc]
    exact .cons blanks_nil (blanks_newline _) (spells_indentedChars _ item h.1)
      (spellsItems_indented level rest h.2)

theorem spellsMembers_indented (level : Nat) : (members : List (String × Json)) →
    WholeMembers members → SpellsMembers members (moreIndentedMembers level members)
  | [], _ => .nil (blanks_newline level)
  | (key, value) :: rest, h => by
    have hmember : SpellsMember (key, value)
        (quote key ++ ':' :: ' ' :: indentedChars (level + 1) value) :=
      .mk blanks_nil blanks_space (spells_indentedChars _ value h.1)
    have hcons := SpellsMembers.cons blanks_nil (blanks_newline (level + 1)) hmember
      (spellsMembers_indented level rest h.2)
    rw [moreIndentedMembers]
    simpa using hcons

end

/-- A value in key order whose numbers are integers of 64 bits is read back from its text. -/
theorem parse?_text {j : Json} (horder : j.InOrder) (hwhole : j.IsWhole) :
    parse? j.text = some j := by
  have hvalue : (written j).value? j.text.length = some j :=
    value?_written j horder (by rw [text, String.length_ofList])
  have hread : Written.parse? j.text = some (written j) :=
    Written.parse?_of_spells (spells_chars j hwhole)
  rw [parse?, hread]
  exact hvalue

/-- No two such values have one text. -/
theorem eq_of_text_eq {j j' : Json} (horder : j.InOrder) (hwhole : j.IsWhole) (horder' : j'.InOrder)
    (hwhole' : j'.IsWhole) (h : j.text = j'.text) : j = j' := by
  have hparsed := parse?_text horder hwhole
  rw [h, parse?_text horder' hwhole'] at hparsed
  exact (Option.some.inj hparsed).symm

theorem plain_of_texts {items : List Json} (h : ∀ item ∈ items, ∃ s, item = .str s) :
    ItemsInOrder items ∧ WholeItems items := by
  induction items with
  | nil => exact ⟨trivial, trivial⟩
  | cons item rest ih =>
    obtain ⟨⟨s, rfl⟩, hrest⟩ := List.forall_mem_cons.mp h
    exact ⟨⟨trivial, (ih hrest).1⟩, trivial, (ih hrest).2⟩

theorem kept_eq_self {j : Json} (horder : j.InOrder) (hwhole : j.IsWhole) : j.kept = j := by
  rw [kept, parse?_text horder hwhole, Option.getD_some]

end Json

end RecordStore
