import Mathlib
import RecordStore.Config.File
import RecordStore.Proofs.Displays
import RecordStore.Proofs.JsonTexts

/-!
# Configurations read back

A configuration is written with its fields in their own order and read in the order of their keys.
Each part is read by the reader of its field, and what is read has the same members. Main statement:
a configuration is read back from its text, so that a directory has for good the one that it was
given first.
-/

namespace RecordStore

/-! ### Parts as they are read -/

namespace Json

/-- A reader takes what is written of a value for the value with its members in key order. -/
def ReadBy (read : Written → Option Json) (j : Json) : Prop := read (written j) = some j.ordered

section

variable {fields : List Written.Field} {members : List (String × Json)}

theorem knownMembers?_written
    (h : ∀ m ∈ members, ∃ read, fields.lookup m.1 = some read ∧ m.2.ReadBy read) :
    Written.knownMembers? fields (writtenMembers members) = some (orderedMembers members) := by
  induction members with
  | nil => rw [writtenMembers, orderedMembers, Written.knownMembers?]
  | cons m rest ih =>
    obtain ⟨key, value⟩ := m
    obtain ⟨⟨read, hlookup, hread⟩, hrest⟩ := List.forall_mem_cons.mp h
    rw [writtenMembers, orderedMembers, Written.knownMembers?, hlookup]
    simp only [ih hrest, show read (written value) = some value.ordered from hread]
    rfl

theorem map_fst_orderedMembers (members : List (String × Json)) :
    (orderedMembers members).map Prod.fst = members.map Prod.fst := by
  induction members with
  | nil => rfl
  | cons m rest ih => rw [orderedMembers, List.map_cons, List.map_cons, ih]

/-- A record is read if each of its members is read by the reader of its field. -/
theorem readBy_record? (hkeys : (members.map Prod.fst).Nodup)
    (h : ∀ m ∈ members, ∃ read, fields.lookup m.1 = some read ∧ m.2.ReadBy read) :
    (obj members).ReadBy (Written.record? fields) := by
  rw [ReadBy, written, Written.record?, knownMembers?_written h, ordered]
  exact if_pos (by rwa [map_fst_orderedMembers])

/-- An object is read as it is if its members are. -/
theorem readBy_value?_obj {depth : Nat} (h : ∀ m ∈ members, m.2.ReadBy (Written.value? depth)) :
    (obj members).ReadBy (Written.value? (depth + 1)) := by
  have hmembers : Written.memberValues? depth (writtenMembers members) =
      some (orderedMembers members) := by
    induction members with
    | nil => rw [writtenMembers, orderedMembers, Written.memberValues?]
    | cons m rest ih =>
      obtain ⟨key, value⟩ := m
      obtain ⟨hread, hrest⟩ := List.forall_mem_cons.mp h
      rw [writtenMembers, orderedMembers, Written.memberValues?]
      simp only [ih hrest, show (written value).value? depth = some value.ordered from hread]
      rfl
  rw [ReadBy, written, Written.value?, hmembers, ordered, Option.map_some]

theorem readBy_value?_arr {items : List Json} {depth : Nat}
    (h : ∀ item ∈ items, item.ReadBy (Written.value? depth)) :
    (arr items).ReadBy (Written.value? (depth + 1)) := by
  have hitems : Written.itemValues? depth (writtenItems items) = some (orderedItems items) := by
    induction items with
    | nil => rw [writtenItems, orderedItems, Written.itemValues?]
    | cons item rest ih =>
      obtain ⟨hread, hrest⟩ := List.forall_mem_cons.mp h
      rw [writtenItems, orderedItems, Written.itemValues?]
      simp only [ih hrest, show (written item).value? depth = some item.ordered from hread]
      rfl
  rw [ReadBy, written, Written.value?, hitems, ordered, Option.map_some]

/-- What was read has each member under its name. -/
theorem member?_ordered (hkeys : (members.map Prod.fst).Nodup) (key : String) :
    (obj members).ordered.member? key = (orderedMembers members).lookup key := by
  have hne : (orderedMembers members).Pairwise fun p q => p.1 ≠ q.1 := by
    rwa [← map_fst_orderedMembers, List.nodup_iff_pairwise_ne, List.pairwise_map] at hkeys
  rw [ordered]
  exact lookup_orderKeys hne key

theorem form?_ordered (hkeys : (members.map Prod.fst).Nodup) (names : List String) :
    (obj members).ordered.form? names = some fun name =>
      (((orderedMembers members).lookup name).map .value).getD .missing := by
  have hmember := member?_ordered hkeys
  rw [ordered] at hmember ⊢
  exact congrArg some (funext fun name => by rw [← hmember name]; rfl)

end

section

variable {α : Type} {write : α → Json}

theorem readBy_orNull {read : Written → Option Json} (hnull : Json.null.ReadBy read)
    (h : ∀ a, (write a).ReadBy read) (o : Option α) : (orNull write o).ReadBy read := by
  cases o with
  | none => exact hnull
  | some a => exact h a

theorem optional_orNull {read : Json → Option α} (h : ∀ a, read (write a).ordered = some a)
    (hne : ∀ a, (write a).ordered ≠ .null) (o : Option α) :
    (Offer.value (orNull write o).ordered).optional read = some o := by
  cases o with
  | none => rfl
  | some a =>
    rw [orNull, Offer.optional]
    · rw [h, Option.map_some]
    · exact hne a

theorem isWhole_orNull (h : ∀ a, (write a).IsWhole) (o : Option α) :
    (orNull write o).IsWhole := by
  cases o with
  | none => trivial
  | some a => exact h a

end

/-! ### Numbers and texts -/

theorem natBelow?_nat {bound n : Nat} (h : n < bound) : (nat n).natBelow? bound = some n := by
  have hfits : (0 : Int) ≤ n ∧ (n : Int) ≤ bound - 1 := by omega
  rw [natBelow?, nat, intBetween?, if_pos hfits, Option.map_some, Int.toNat_natCast]

theorem word32?_word32 (w : UInt32) : (word32 w).ordered.word32? = some w := by
  change (nat w.toNat).word32? = some w
  rw [word32?, nat32?, natBelow?_nat w.toNat_lt_size, Option.map_some, UInt32.ofNat_toNat]

theorem word64?_word64 (w : UInt64) : (word64 w).ordered.word64? = some w := by
  change (nat w.toNat).word64? = some w
  rw [word64?, nat64?, natBelow?_nat w.toNat_lt_size, Option.map_some, UInt64.ofNat_toNat]

theorem optional_word32 (o : Option UInt32) :
    (Offer.value (orNull word32 o).ordered).optional word32? = some o :=
  optional_orNull word32?_word32 nofun o

theorem optional_word64 (o : Option UInt64) :
    (Offer.value (orNull word64 o).ordered).optional word64? = some o :=
  optional_orNull word64?_word64 nofun o

theorem isWhole_nat {n : Nat} (h : n < UInt64.size) : (nat n).IsWhole :=
  ⟨by simp, Int.ofNat_lt.mpr h⟩

theorem isWhole_word32 (w : UInt32) : (word32 w).IsWhole :=
  isWhole_nat (w.toNat_lt_size.trans (by decide))

theorem isWhole_word64 (w : UInt64) : (word64 w).IsWhole := isWhole_nat w.toNat_lt_size

theorem readBy_word32 (o : Option UInt32) : (orNull word32 o).ReadBy Written.plain? :=
  readBy_orNull (by rfl) (fun _ => by rfl) o

theorem readBy_word64 (o : Option UInt64) : (orNull word64 o).ReadBy Written.plain? :=
  readBy_orNull (by rfl) (fun _ => by rfl) o

theorem readBy_texts (texts : List String) : (list str texts).ReadBy Written.plainItems? := by
  have hread : (list str texts).ReadBy (Written.value? 1) := by
    refine readBy_value?_arr fun item hitem => ?_
    obtain ⟨t, -, rfl⟩ := List.mem_map.mp hitem
    rfl
  rw [ReadBy, list, written] at hread ⊢
  exact hread

theorem list?_texts (texts : List String) : (list str texts).ordered.list? str? = some texts := by
  rw [list, ordered, list?]
  induction texts with
  | nil => rfl
  | cons t rest ih =>
    rw [List.map_cons, orderedItems, List.mapM_cons, ih]
    rfl

theorem isWhole_texts (texts : List String) : (list str texts).IsWhole :=
  (plain_of_texts fun _ hitem => by
    obtain ⟨t, -, rfl⟩ := List.mem_map.mp hitem
    exact ⟨t, rfl⟩).2

end Json

/-! ### Parts of a configuration -/

namespace PoolLimits

variable (p : PoolLimits)

theorem readBy_toJson : p.toJson.ReadBy
    (Json.Written.record? (fields.map fun name => (name, Json.Written.plain?))) := by
  refine Json.readBy_record? (by simp) ?_
  simp only [List.forall_mem_cons]
  exact ⟨⟨_, rfl, Json.readBy_word32 _⟩, ⟨_, rfl, Json.readBy_word32 _⟩,
    ⟨_, rfl, Json.readBy_word64 _⟩, ⟨_, rfl, Json.readBy_word64 _⟩, ⟨_, rfl, Json.readBy_word64 _⟩,
    nofun⟩

theorem ofJson?_toJson : ofJson? p.toJson.ordered = some p := by
  rw [ofJson?, toJson, Json.form?_ordered (by simp)]
  simp [Json.orderedMembers, List.lookup_cons, Json.optional_word32, Json.optional_word64]

theorem isWhole_toJson : p.toJson.IsWhole :=
  ⟨Json.isWhole_orNull Json.isWhole_word32 _, Json.isWhole_orNull Json.isWhole_word32 _,
    Json.isWhole_orNull Json.isWhole_word64 _, Json.isWhole_orNull Json.isWhole_word64 _,
    Json.isWhole_orNull Json.isWhole_word64 _, trivial⟩

end PoolLimits

namespace PageLimits

variable (l : PageLimits)

theorem readBy_toJson : l.toJson.ReadBy
    (Json.Written.record? (fields.map fun name => (name, Json.Written.plain?))) := by
  refine Json.readBy_record? (by simp) ?_
  simp only [List.forall_mem_cons]
  exact ⟨⟨_, rfl, Json.readBy_word32 _⟩, ⟨_, rfl, Json.readBy_word32 _⟩, nofun⟩

theorem ofJson?_toJson : ofJson? l.toJson.ordered = some l := by
  rw [ofJson?, toJson, Json.form?_ordered (by simp)]
  simp [Json.orderedMembers, List.lookup_cons, Json.optional_word32]

theorem isWhole_toJson : l.toJson.IsWhole :=
  ⟨Json.isWhole_orNull Json.isWhole_word32 _, Json.isWhole_orNull Json.isWhole_word32 _, trivial⟩

end PageLimits

namespace UnknownPolicy

theorem choice?_toJson (p : UnknownPolicy) : p.toJson.ordered.choice? names = some p := by
  cases p <;> rfl

end UnknownPolicy

namespace Backend

variable (b : Backend)

theorem member?_name : (b.toJson.ordered.member? "backend").bind Json.str? = some b.name := by
  cases b <;>
  · rw [toJson, Json.member?_ordered (by simp)]
    rfl

theorem readBy_toJson : b.toJson.ReadBy ofWritten? := by
  have hvalue : b.toJson.ReadBy (Json.Written.value? nestingLimit) := by
    cases b with
    | sqlite path =>
      refine Json.readBy_value?_obj ?_
      simp only [List.forall_mem_cons]
      exact ⟨rfl, Json.readBy_orNull (by rfl) (fun _ => by rfl) path, nofun⟩
    | postgres url | mysql url =>
      refine Json.readBy_value?_obj ?_
      simp only [List.forall_mem_cons]
      exact ⟨rfl, rfl, nofun⟩
  rw [Json.ReadBy] at hvalue ⊢
  rw [ofWritten?, hvalue]
  simp only [Option.bind_eq_bind, Option.bind_some, member?_name]
  cases b <;> rfl

theorem ofNamed?_toJson : ofNamed? b.name b.toJson.ordered = some b := by
  cases b with
  | sqlite path =>
    have hpath : (Json.Offer.value (Json.orNull .str path).ordered).optional Json.str? =
        some path := Json.optional_orNull (fun _ => by rfl) (fun _ => by nofun) path
    rw [toJson, ofNamed?, Json.form?_ordered (by simp)]
    simp [name, Json.orderedMembers, List.lookup_cons, hpath]
  | postgres url | mysql url =>
    rw [toJson, ofNamed?, Json.form?_ordered (by simp)]
    rfl

theorem ofJson?_toJson : ofJson? b.toJson.ordered = some b := by
  obtain ⟨members, hmembers⟩ : ∃ members, b.toJson.ordered = .obj members := by
    cases b <;> exact ⟨_, by rw [toJson, Json.ordered]⟩
  have hname := b.member?_name
  have hnamed := b.ofNamed?_toJson
  rw [hmembers] at hname hnamed ⊢
  rw [ofJson?, show members.lookup "backend" = (Json.obj members).member? "backend" from rfl, hname]
  exact hnamed

theorem isWhole_toJson : b.toJson.IsWhole := by
  cases b with
  | sqlite path => exact ⟨trivial, Json.isWhole_orNull (fun _ => by trivial) path, trivial⟩
  | postgres url | mysql url => exact ⟨trivial, trivial, trivial⟩

end Backend

/-! ### The whole -/

namespace Config

theorem readBy_toJson (c : Config) : c.toJson.ReadBy (Json.Written.record? fields) := by
  refine Json.readBy_record? (by simp) ?_
  simp only [List.forall_mem_cons]
  exact ⟨⟨_, rfl, c.backend.readBy_toJson⟩,
    ⟨_, rfl, Json.readBy_orNull (by rfl) PoolLimits.readBy_toJson c.pool⟩,
    ⟨_, rfl, Json.readBy_orNull (by rfl) PageLimits.readBy_toJson c.pages⟩,
    ⟨_, rfl, Json.readBy_orNull (by rfl) (fun _ => by rfl) c.unknown⟩,
    ⟨_, rfl, Json.readBy_orNull (by rfl) Json.readBy_texts c.failpoints⟩, nofun⟩

theorem ofJson?_toJson (c : Config) : ofJson? c.toJson.ordered = some c := by
  have hpool := Json.optional_orNull PoolLimits.ofJson?_toJson nofun c.pool
  have hpages := Json.optional_orNull PageLimits.ofJson?_toJson nofun c.pages
  have hunknown := Json.optional_orNull UnknownPolicy.choice?_toJson nofun c.unknown
  have hfailpoints := Json.optional_orNull Json.list?_texts nofun c.failpoints
  rw [ofJson?, toJson, Json.form?_ordered (by simp)]
  simp [Json.orderedMembers, List.lookup_cons, Json.Offer.required, c.backend.ofJson?_toJson, hpool,
    hpages, hunknown, hfailpoints]

theorem isWhole_toJson (c : Config) : c.toJson.IsWhole :=
  ⟨c.backend.isWhole_toJson, Json.isWhole_orNull PoolLimits.isWhole_toJson c.pool,
    Json.isWhole_orNull PageLimits.isWhole_toJson c.pages,
    Json.isWhole_orNull (fun _ => by trivial) c.unknown,
    Json.isWhole_orNull Json.isWhole_texts c.failpoints, trivial⟩

/-- A configuration is read from whatever spells it. -/
theorem parse_of_spells {c : Config} {cs : List Char} (h : Json.Spells c.toJson cs) :
    parse (String.ofList cs) = .ok c := by
  have hread : Json.Written.record? fields (Json.written c.toJson) = some c.toJson.ordered :=
    c.readBy_toJson
  simp only [parse, Json.Written.parse?_of_spells h, Option.bind_some, hread, c.ofJson?_toJson]

theorem parse_text (c : Config) : parse c.toJson.text = .ok c :=
  parse_of_spells (Json.spells_chars _ c.isWhole_toJson)

theorem parse_fileText (c : Config) : parse c.fileText = .ok c :=
  parse_of_spells (Json.spells_indentedChars 0 _ c.isWhole_toJson)

/-! ### Directories that are opened again -/

/-- Loads the configuration of a directory under one path after the other, given the text of its
file if there is one: what is loaded, and the text of the file in the end. -/
def loadEach : List String → Option String → Except Error (List Config × Option String)
  | [], file => .ok ([], file)
  | directory :: rest, file => do
    let (c, text) ← load directory file
    let (others, last) ← loadEach rest (some text)
    return (c :: others, last)

theorem loadEach_cons {directory : String} {file : Option String} {c : Config} {text : String}
    (h : load directory file = .ok (c, text)) (rest : List String) :
    loadEach (directory :: rest) file =
      (loadEach rest (some text)).map fun r => (c :: r.1, r.2) := by
  rw [loadEach, h, ok_bind]
  dsimp only
  cases loadEach rest (some text) <;> rfl

theorem load_fileText (directory : String) (c : Config) :
    load directory (some c.fileText) = .ok (c, c.fileText) := by
  rw [load, parse_fileText]
  rfl

/-- Where a configuration has been written, it stays. -/
theorem loadEach_fileText (c : Config) (directories : List String) :
    loadEach directories (some c.fileText) =
      .ok (List.replicate directories.length c, some c.fileText) := by
  induction directories with
  | nil => rfl
  | cons directory rest ih =>
    rw [loadEach_cons (load_fileText directory c), ih]
    rfl

/-- A directory keeps the configuration that it was given when it was opened first, and its file is
not changed. Every configuration is read back from its text, be it compact or indented. Its pages
have room for an item, and no more is shown by default than can be asked for. -/
theorem stays_configured (directory : String) (later : List String) :
    loadEach (directory :: later) none =
      .ok (List.replicate (later.length + 1) (ofDataFile (defaultDataPath directory)),
        some (ofDataFile (defaultDataPath directory)).fileText) ∧
    ∀ c : Config, parse c.toJson.text = .ok c ∧ parse c.toJson.indentedText = .ok c ∧
      1 ≤ c.maxPageSize ∧ c.defaultPageSize ≤ c.maxPageSize := by
  refine ⟨?_, fun c => ⟨c.parse_text, c.parse_fileText, c.one_le_maxPageSize, c.defaultPageSize_le⟩⟩
  rw [loadEach_cons rfl]
  exact congrArg _ (loadEach_fileText _ later)

end Config

end RecordStore
