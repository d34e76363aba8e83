import RecordStore.Value.Basic

/-!
# Names and locations read back

The parts of a name or a location are kept without surrounding white space, and a blank part is
none. Main statements: what is normalized stays as it is when it is normalized again; its public
shape is read as itself, and is blank only if no part is left.
-/

namespace RecordStore

/-! ### Text that is not blank -/

theorem nonBlank_eq_some_iff {s : Option String} {t : String} :
    nonBlank s = some t ↔ ∃ u, s = some u ∧ Text.trim u = t ∧ t ≠ "" := by
  cases s with
  | none => simp [nonBlank]
  | some u =>
    simp only [nonBlank, Option.map_some, Option.filter_eq_some_iff, Option.some.injEq,
      decide_eq_true_eq, exists_eq_left']

/-- Text that is trimmed already stays as it is. -/
theorem nonBlank_some {t : String} (htrim : Text.trim t = t) (hne : t ≠ "") :
    nonBlank (some t) = some t := nonBlank_eq_some_iff.mpr ⟨t, rfl, htrim, hne⟩

@[simp] theorem nonBlank_nonBlank (s : Option String) : nonBlank (nonBlank s) = nonBlank s := by
  cases h : nonBlank s with
  | none => rfl
  | some t =>
    obtain ⟨u, -, rfl, hne⟩ := nonBlank_eq_some_iff.mp h
    exact nonBlank_some (Text.trim_trim u) hne

theorem isBlank_of_nonBlank {s : Option String} {t : String} (h : nonBlank s = some t) :
    Text.isBlank t = false := by
  obtain ⟨u, -, rfl, hne⟩ := nonBlank_eq_some_iff.mp h
  exact Text.isBlank_trim_eq_false hne

/-- Two trimmed texts with a space between them are trimmed. -/
theorem trim_joined {f l : String} (hf : Text.trim f = f) (hf' : f ≠ "") (hl : Text.trim l = l)
    (hl' : l ≠ "") : Text.trim (f ++ " " ++ l) = f ++ " " ++ l := by
  have hfchars : Text.trimChars f.toList = f.toList := by rw [← Text.toList_trim, hf]
  have hlchars : Text.trimChars l.toList = l.toList := by rw [← Text.toList_trim, hl]
  have hchars : (f ++ " " ++ l).toList = f.toList ++ (' ' :: l.toList) := by simp
  have htrimmed : Text.trimChars (f ++ " " ++ l).toList = (f ++ " " ++ l).toList := by
    rw [hchars]
    refine Text.trimChars_eq_self (fun c hc => ?_) fun c hc => ?_
    · rw [List.head?_append, Option.mem_def, Option.or_eq_some_iff, ← hfchars] at hc
      rcases hc with hc | ⟨hc, -⟩
      · exact Text.isSpace_of_head?_trimChars hc
      · rw [hfchars, List.head?_eq_none_iff, String.toList_eq_nil_iff] at hc
        exact absurd hc hf'
    · rw [List.getLast?_append, List.getLast?_cons, Option.mem_def, ← hlchars] at hc
      cases hlast : (Text.trimChars l.toList).getLast? with
      | some d =>
        rw [hlast] at hc
        cases hc
        exact Text.isSpace_of_getLast?_trimChars hlast
      | none =>
        rw [hlchars, List.getLast?_eq_none_iff, String.toList_eq_nil_iff] at hlast
        exact absurd hlast hl'
  rw [Text.trim, htrimmed, String.ofList_toList]

/-! ### Names -/

namespace PersonalName

theorem nonBlank_full_normalized (n : PersonalName) :
    nonBlank n.normalized.full = n.normalized.full := by
  cases hfull : nonBlank n.full with
  | some t =>
    have hnormalized : n.normalized.full = nonBlank n.full := by simp [normalized, hfull]
    rw [hnormalized, nonBlank_nonBlank]
  | none =>
    -- the full name is put together from the parts, which are trimmed
    simp only [normalized, hfull, Option.none_or]
    cases hfirst : nonBlank n.first with
    | none => exact nonBlank_nonBlank n.last
    | some f =>
      obtain ⟨u, -, rfl, hf⟩ := nonBlank_eq_some_iff.mp hfirst
      cases hlast : nonBlank n.last with
      | none => exact nonBlank_some (Text.trim_trim u) hf
      | some l =>
        obtain ⟨v, -, rfl, hl⟩ := nonBlank_eq_some_iff.mp hlast
        refine nonBlank_some (trim_joined (Text.trim_trim u) hf (Text.trim_trim v) hl) ?_
        intro hempty
        have hlength := congrArg String.length hempty
        simp at hlength

/-- The parts of a normalized name are as they are to be. -/
@[simp] theorem normalized_normalized (n : PersonalName) :
    n.normalized.normalized = n.normalized := by
  rw [normalized, nonBlank_full_normalized]
  simp only [normalized, nonBlank_nonBlank, Option.or_assoc, Option.or_self]

end PersonalName

/-! ### Present members -/

theorem Json.lookup_presentMembers {ms : List (String × Option Json)}
    (h : (ms.map Prod.fst).Nodup) (key : String) :
    (ms.filterMap fun m => m.2.map fun j => (m.1, j)).lookup key = (ms.lookup key).join := by
  induction ms with
  | nil => rfl
  | cons m rest ih =>
    obtain ⟨k, o⟩ := m
    rw [List.map_cons, List.nodup_cons] at h
    rw [List.lookup_cons]
    by_cases hkey : key = k
    · subst hkey
      have hnone : rest.lookup key = none :=
        List.lookup_eq_none_iff.mpr fun p hp => by
          simp only [bne_iff_ne]
          rintro rfl
          exact h.1 (List.mem_map.mpr ⟨p, hp, rfl⟩)
      cases o with
      | some j => simp
      | none => simp [ih h.2, hnone]
    · have hne : (key == k) = false := beq_eq_false_iff_ne.mpr hkey
      cases o with
      | some j => simp [List.lookup_cons, hne, ih h.2]
      | none => simp [hne, ih h.2]

/-- A record form of present members offers each of them under its name. -/
theorem Json.form?_presentMembers {ms : List (String × Option Json)}
    (h : (ms.map Prod.fst).Nodup) (fields : List String) :
    (presentMembers ms).form? fields =
      some fun name => ((ms.lookup name).join.map Offer.value).getD .missing := by
  simp only [presentMembers, form?, lookup_presentMembers h]

theorem Json.optionalTail_str (o : Option String) :
    ((o.map (Offer.value ∘ Json.str)).getD .missing).optionalTail Json.str? = some o := by
  cases o <;> rfl

theorem Json.optionalTail_float (o : Option Double) :
    ((o.map (Offer.value ∘ Json.float)).getD .missing).optionalTail Json.number? = some o := by
  cases o <;> rfl

theorem PersonalName.ofJson?_toJson (n : PersonalName) : ofJson? n.toJson = some n := by
  rw [ofJson?, toJson, Json.form?_presentMembers (by simp)]
  simp [List.lookup_cons, Json.optionalTail_str]

theorem Location.ofJson?_toJson (l : Location) : ofJson? l.toJson = some l := by
  rw [ofJson?, toJson, Json.form?_presentMembers (by simp)]
  simp [List.lookup_cons, Json.optionalTail_str, Json.optionalTail_float]

@[simp] theorem Location.normalized_normalized (l : Location) :
    l.normalized.normalized = l.normalized := by
  simp [normalized]

/-! ### Blank members -/

theorem Json.isBlank_presentMembers {ms : List (String × Option Json)}
    (h : (presentMembers ms).isBlank = true) : ∀ m ∈ ms, ∀ j ∈ m.2, j.isBlank = true := by
  intro m hm
  rw [presentMembers, isBlank] at h
  induction ms with
  | nil => cases hm
  | cons other rest ih =>
    obtain ⟨k, o⟩ := other
    cases o with
    | none =>
      rcases List.mem_cons.mp hm with rfl | hrest
      · simp
      · exact ih (by simpa using h) hrest
    | some j =>
      simp only [List.filterMap_cons, Option.map_some, blankMembers, Bool.and_eq_true] at h
      rcases List.mem_cons.mp hm with rfl | hrest
      · rintro _ ⟨⟩
        exact h.1
      · exact ih h.2 hrest

/-- A part that is normalized is missing if it is blank. -/
theorem eq_none_of_isBlank {part : Option String} (hpart : nonBlank part = part)
    (h : ∀ j ∈ part.map Json.str, j.isBlank = true) : part = none := by
  cases part with
  | none => rfl
  | some t =>
    have hblank : Text.isBlank t = true := by
      have hj := h (.str t) rfl
      rwa [Json.isBlank] at hj
    rw [isBlank_of_nonBlank hpart] at hblank
    cases hblank

theorem eq_none_of_isBlank_float {d : Option Double}
    (h : ∀ j ∈ d.map Json.float, j.isBlank = true) : d = none := by
  cases d with
  | none => rfl
  | some d =>
    have hj := h (.float d) rfl
    rw [Json.isBlank] at hj
    · cases hj
    all_goals simp

theorem PersonalName.isBlank_toJson {n : PersonalName} (h : n.normalized.isEmpty = false) :
    n.normalized.toJson.isBlank = false := by
  rw [Bool.eq_false_iff]
  intro hblank
  have hparts := Json.isBlank_presentMembers hblank
  simp only [List.forall_mem_cons] at hparts
  obtain ⟨hfirst, hfull, hlast, -⟩ := hparts
  have hnone : n.normalized = ⟨none, none, none⟩ := by
    rw [PersonalName.mk.injEq]
    exact ⟨eq_none_of_isBlank (nonBlank_nonBlank n.first) hfirst,
      eq_none_of_isBlank (nonBlank_nonBlank n.last) hlast,
      eq_none_of_isBlank (nonBlank_full_normalized n) hfull⟩
  rw [hnone] at h
  cases h

theorem Location.isBlank_toJson {l : Location} (h : l.normalized.isEmpty = false) :
    l.normalized.toJson.isBlank = false := by
  rw [Bool.eq_false_iff]
  intro hblank
  have hparts := Json.isBlank_presentMembers hblank
  simp only [List.forall_mem_cons] at hparts
  obtain ⟨hcity, hcountry, hlatitude, hline1, hline2, hlongitude, hpostcode, hstate, -⟩ := hparts
  have hnone : l.normalized = ⟨none, none, none, none, none, none, none, none⟩ := by
    rw [Location.mk.injEq]
    exact ⟨eq_none_of_isBlank (nonBlank_nonBlank l.line1) hline1,
      eq_none_of_isBlank (nonBlank_nonBlank l.line2) hline2,
      eq_none_of_isBlank (nonBlank_nonBlank l.city) hcity,
      eq_none_of_isBlank (nonBlank_nonBlank l.state) hstate,
      eq_none_of_isBlank (nonBlank_nonBlank l.postcode) hpostcode,
      eq_none_of_isBlank (nonBlank_nonBlank l.country) hcountry,
      eq_none_of_isBlank_float hlatitude, eq_none_of_isBlank_float hlongitude⟩
  rw [hnone] at h
  cases h

end RecordStore
