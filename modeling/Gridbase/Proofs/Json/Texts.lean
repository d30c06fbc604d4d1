import Gridbase.Proofs.Json.Models

/-! # Models as texts of JSON

    Every model comes back from its written forms, compact and indented (`models_comeBack`).  The
    doubles of a sheet have to be finite and restored from their texts for that; those of a
    sheet that was decoded are finite.

    * A decoded double is finite since the reader finds no others: what is read of a field was
      parsed (`sound_of_fields?`), down to the double of a rule
      (`InputRule.isFinite_of_ofJson?`, `Sheet.isFinite_of_ofJson?`). -/

namespace Gridbase

open Gridbase.Json

/-! ## What is decoded was parsed -/

namespace Json

/-- The value keeps the bounds of the reader at some depth. -/
def Sound (j : Json) : Prop := ∃ depth, Bounded depth j

variable {α : Type} {j v : Json} {tag name : String}

theorem Sound.item {items : List Json} (h : Sound (.array items)) (hj : j ∈ items) : Sound j := by
  obtain ⟨_, h⟩ := h
  cases h with
  | array h => exact ⟨_, h j hj⟩

theorem Sound.member {members : List (String × Json)} (h : Sound (.object members))
    {m : String × Json} (hm : m ∈ members) : Sound m.2 := by
  obtain ⟨_, h⟩ := h
  cases h with
  | object h => exact ⟨_, h m hm⟩

theorem sound_of_memberField? {members : List (String × Json)} (h : Sound (.object members))
    (hfield : memberField? members name = some (some v)) : Sound v := by
  rw [memberField?] at hfield
  split at hfield
  · cases hfield
  · rename_i value hvalue
    obtain rfl := Option.some.inj (Option.some.inj hfield)
    have hmem : value ∈ membersOf name members := by
      rw [hvalue]
      exact List.mem_singleton_self _
    obtain ⟨m, hm, rfl⟩ := List.mem_map.mp hmem
    exact h.member (List.mem_of_mem_filter hm)
  · cases hfield

theorem sound_of_memberFields? {members : List (String × Json)} (h : Sound (.object members))
    {names : List String} : ∀ {fields : List (Option Json)},
      memberFields? members names = some fields → some v ∈ fields → Sound v := by
  induction names with
  | nil =>
      intro fields hfields hv
      obtain rfl := Option.some.inj hfields
      exact nomatch hv
  | cons name names ih =>
      intro fields hfields hv
      obtain ⟨field, hfield, hfields⟩ := Option.bind_eq_some_iff.mp hfields
      obtain ⟨rest, hrest, hfields⟩ := Option.bind_eq_some_iff.mp hfields
      obtain rfl := Option.some.inj hfields
      rcases List.mem_cons.mp hv with rfl | hv
      · exact sound_of_memberField? h hfield
      · exact ih hrest hv

/-- A value that is found for a field is one of the items. -/
theorem mem_of_itemFields? {names : List String} :
    ∀ {items : List Json} {fields : List (Option Json)},
      itemFields? items names = some fields → some v ∈ fields → v ∈ items := by
  -- induction on the names, with items and fields left open
  induction names with
  | nil =>
      intro items fields hfields hv
      cases items with
      | nil =>
          obtain rfl := Option.some.inj hfields
          exact nomatch hv
      | cons j items => exact nomatch hfields
  | cons name names ih =>
      intro items fields hfields hv
      cases items with
      | nil =>
          obtain ⟨rest, hrest, rfl⟩ := Option.map_eq_some_iff.mp hfields
          rcases List.mem_cons.mp hv with hnone | hv
          · exact nomatch hnone
          · exact ih hrest hv
      | cons j items =>
          obtain ⟨rest, hrest, rfl⟩ := Option.map_eq_some_iff.mp hfields
          rcases List.mem_cons.mp hv with hfirst | hv
          · rw [Option.some.inj hfirst]
            exact List.mem_cons_self ..
          · exact List.mem_cons_of_mem _ (ih hrest hv)

/-- **THE FIELDS OF WHAT WAS PARSED** were parsed. -/
theorem sound_of_fields? (h : Sound j) {names : List String} {fields : List (Option Json)}
    (hfields : j.fields? names = some fields) (hv : some v ∈ fields) : Sound v := by
  cases j with
  | array items => exact h.item (mem_of_itemFields? hfields hv)
  | object members => exact sound_of_memberFields? h hfields hv
  | null => exact nomatch hfields
  | bool b => exact nomatch hfields
  | integer n => exact nomatch hfields
  | real x => exact nomatch hfields
  | string s => exact nomatch hfields

theorem sound_of_variant? (h : Sound j) (hvariant : variant? tag j = some (name, v)) : Sound v := by
  unfold variant? at hvariant
  split at hvariant
  · split at hvariant
    · obtain ⟨-, rfl⟩ := Prod.mk.inj (Option.some.inj hvariant)
      obtain ⟨_, h⟩ := h
      cases h with
      | object h => exact ⟨_, .object fun m hm => h m (List.mem_of_mem_filter hm)⟩
    · exact nomatch hvariant
  · obtain ⟨-, rfl⟩ := Prod.mk.inj (Option.some.inj hvariant)
    obtain ⟨_, h⟩ := h
    cases h with
    | array h => exact ⟨_, .array fun j hj => h j (List.mem_cons_of_mem _ hj)⟩
  · exact nomatch hvariant

theorem exists_of_mem_listOf? {item? : Json → Option α} {a : α} {values : List Json} :
    ∀ {items : List α}, listOf? item? values = some items → a ∈ items →
      ∃ v ∈ values, item? v = some a := by
  induction values with
  | nil =>
      intro items hread ha
      obtain rfl := Option.some.inj hread
      exact nomatch ha
  | cons value values ih =>
      intro items hread ha
      obtain ⟨first, hfirst, hread⟩ := Option.bind_eq_some_iff.mp hread
      obtain ⟨rest, hrest, hread⟩ := Option.bind_eq_some_iff.mp hread
      obtain rfl := Option.some.inj hread
      rcases List.mem_cons.mp ha with rfl | ha
      · exact ⟨value, List.mem_cons_self .., hfirst⟩
      · obtain ⟨v, hv, hitem⟩ := ih hrest ha
        exact ⟨v, List.mem_cons_of_mem _ hv, hitem⟩

/-- The items of a list that was parsed were parsed. -/
theorem sound_of_mem_array? {item? : Json → Option α} (h : Sound j) {items : List α}
    (hread : array? item? j = some items) {a : α} (ha : a ∈ items) :
    ∃ v, Sound v ∧ item? v = some a := by
  cases j with
  | array values =>
      obtain ⟨v, hv, hitem⟩ := exists_of_mem_listOf? hread ha
      exact ⟨v, h.item hv, hitem⟩
  | null => exact nomatch hread
  | bool b => exact nomatch hread
  | integer n => exact nomatch hread
  | real x => exact nomatch hread
  | string s => exact nomatch hread
  | object members => exact nomatch hread

theorem isFinite_of_number64? (h : Sound j) {x : Binary64} (hread : number64? j = some x) :
    x.isFinite = true := by
  obtain ⟨_, h⟩ := h
  cases h with
  | integer hrange =>
      obtain rfl := Option.some.inj hread
      exact isFinite_ofInt hrange
  | real hfinite =>
      obtain rfl := Option.some.inj hread
      exact hfinite
  | null => exact nomatch hread
  | bool b => exact nomatch hread
  | string s => exact nomatch hread
  | array _ => exact nomatch hread
  | object _ => exact nomatch hread

end Json

/-! ## Decoded doubles -/

/-- The only field of a rule is read from what was parsed. -/
theorem InputRule.sound_of_field? {α : Type} {name : String} {value? : Json → Option α} {j : Json}
    (h : Sound j) {a : α} (hread : field? name value? j = some a) :
    ∃ v, Sound v ∧ value? v = some a := by
  rw [field?] at hread
  split at hread
  · rename_i field hfields
    obtain ⟨v, rfl, hv⟩ := Option.bind_eq_some_iff.mp hread
    exact ⟨v, sound_of_fields? h hfields (List.mem_singleton_self _), hv⟩
  · cases hread

/-- The double of a rule that was decoded is finite. -/
theorem InputRule.isFinite_of_ofJson? {j : Json} (h : Sound j) {r : InputRule}
    (hread : ofJson? j = some r) : ∀ x ∈ r.leastDecimal?, x.isFinite = true := by
  obtain ⟨⟨kind, fields⟩, hvariant, hread⟩ := Option.bind_eq_some_iff.mp hread
  have hfields := sound_of_variant? h hvariant
  dsimp only at hread
  -- only the rule for decimals has a double
  split_ifs at hread
  · obtain ⟨min, -, hread⟩ := Option.bind_eq_some_iff.mp hread
    obtain rfl := Option.some.inj hread
    exact fun _ hx => nomatch hx
  · obtain ⟨min, hmin, hread⟩ := Option.bind_eq_some_iff.mp hread
    obtain rfl := Option.some.inj hread
    obtain ⟨v, hv, hnumber⟩ := sound_of_field? hfields hmin
    intro x hx
    obtain rfl := Option.some.inj hx
    exact isFinite_of_number64? hv hnumber
  · obtain ⟨min, -, hread⟩ := Option.bind_eq_some_iff.mp hread
    obtain rfl := Option.some.inj hread
    exact fun _ hx => nomatch hx
  · obtain ⟨items, -, hread⟩ := Option.bind_eq_some_iff.mp hread
    obtain rfl := Option.some.inj hread
    exact fun _ hx => nomatch hx
  · obtain ⟨formula, -, hread⟩ := Option.bind_eq_some_iff.mp hread
    obtain rfl := Option.some.inj hread
    exact fun _ hx => nomatch hx

theorem Validation.isFinite_of_ofJson? {j : Json} (h : Sound j) {v : Validation}
    (hread : ofJson? j = some v) : ∀ x ∈ v.rule.leastDecimal?, x.isFinite = true := by
  rw [ofJson?] at hread
  split at hread
  · rename_i range rule ignoreBlank alert hfields
    obtain ⟨range', -, hread⟩ := Option.bind_eq_some_iff.mp hread
    obtain ⟨rule', hrule, hread⟩ := Option.bind_eq_some_iff.mp hread
    obtain ⟨ignoreBlank', -, hread⟩ := Option.bind_eq_some_iff.mp hread
    obtain ⟨alert', -, hread⟩ := Option.bind_eq_some_iff.mp hread
    obtain rfl := Option.some.inj hread
    obtain ⟨value, rfl, hvalue⟩ := Option.bind_eq_some_iff.mp hrule
    exact InputRule.isFinite_of_ofJson? (sound_of_fields? h hfields (by simp)) hvalue
  · cases hread

/-- **THE DOUBLES OF A DECODED SHEET** are finite.  A double that is not finite has no
    text in JSON, so it can only come from elsewhere. -/
theorem Sheet.isFinite_of_ofJson? {j : Json} (h : Sound j) {s : Sheet}
    (hread : ofJson? j = some s) : ∀ x ∈ s.leastDecimals, x.isFinite = true := by
  rw [ofJson?] at hread
  split at hread
  · rename_i name rows cellStyles columnStyles validations protection hfields
    obtain ⟨name', -, hread⟩ := Option.bind_eq_some_iff.mp hread
    obtain ⟨rows', -, hread⟩ := Option.bind_eq_some_iff.mp hread
    obtain ⟨cellStyles', -, hread⟩ := Option.bind_eq_some_iff.mp hread
    obtain ⟨columnStyles', -, hread⟩ := Option.bind_eq_some_iff.mp hread
    obtain ⟨validations', hvalidations, hread⟩ := Option.bind_eq_some_iff.mp hread
    obtain ⟨protection', -, hread⟩ := Option.bind_eq_some_iff.mp hread
    obtain rfl := Option.some.inj hread
    intro x hx
    obtain ⟨v, hv, hmin⟩ := List.mem_filterMap.mp hx
    -- absent validations are none at all
    cases validations with
    | none =>
        obtain rfl := Option.some.inj hvalidations
        cases hv
    | some value =>
        have hvalue : Sound value := sound_of_fields? h hfields (by simp)
        obtain ⟨w, hw, hread⟩ := sound_of_mem_array? hvalue hvalidations hv
        exact Validation.isFinite_of_ofJson? hw hread x hmin
  · cases hread

/-! ## Models -/

/-- The model that a text of JSON holds: the text is parsed, and its record is decoded.
    -/
def Json.decode? {α : Type} (ofJson? : Json → Option α) (text : String) : Option α :=
  (parse? text).bind ofJson?

/-- The model is decoded from both of its written forms, and it is the same one. -/
structure Json.ComesBack {α : Type} (toJson : α → Json) (ofJson? : Json → Option α) (a : α) :
    Prop where
  compact : decode? ofJson? (toJson a).compact = some a
  pretty : decode? ofJson? ((toJson a).pretty 0) = some a

theorem Json.comesBack_of_within {α : Type} {toJson : α → Json} {ofJson? : Json → Option α} {a : α}
    (hwithin : Within IsRestored maxDepth (toJson a)) (hread : ofJson? (toJson a) = some a) :
    ComesBack toJson ofJson? a := by
  obtain ⟨hcompact, hpretty⟩ := hwithin.parse?_eq
  constructor
  · rw [decode?, hcompact]
    exact hread
  · rw [decode?, hpretty]
    exact hread

/-- A sheet comes back if its doubles are restored from their texts. -/
theorem Sheet.comesBack {s : Sheet} (h : ∀ x ∈ s.leastDecimals, IsRestored x) :
    ComesBack toJson ofJson? s :=
  comesBack_of_within (s.within_toJson h) s.ofJson?_toJson

/-- **MODELS COME BACK**: column designs, table designs, column information and revisions always;
    sheets if finite doubles are restored from their texts, and the doubles of the sheet
    are finite or the sheet was decoded itself. -/
theorem Json.models_comeBack :
    (∀ c, ComesBack ColumnDesign.toJson ColumnDesign.ofJson? c)
      ∧ (∀ t, ComesBack TableDesign.toJson TableDesign.ofJson? t)
      ∧ (∀ c, ComesBack ColumnInfo.toJson ColumnInfo.ofJson? c)
      ∧ (∀ r, ComesBack TableRevision.toJson TableRevision.ofJson? r)
      ∧ ∀ s : Sheet, (∀ x ∈ s.leastDecimals, x.isFinite = true → IsRestored x) →
        (∀ x ∈ s.leastDecimals, x.isFinite = true)
          ∨ (∃ text, decode? Sheet.ofJson? text = some s) →
        ComesBack Sheet.toJson Sheet.ofJson? s := by
  refine ⟨fun c => ?_, fun t => ?_, fun c => ?_, fun r => ?_, fun s hrestored hfinite => ?_⟩
  · exact comesBack_of_within c.within_toJson c.ofJson?_toJson
  · exact comesBack_of_within t.within_toJson t.ofJson?_toJson
  · exact comesBack_of_within c.within_toJson c.ofJson?_toJson
  · exact comesBack_of_within r.within_toJson r.ofJson?_toJson
  · refine Sheet.comesBack fun x hx => hrestored x hx ?_
    -- finite by assumption, or because no text is read as another double
    rcases hfinite with hfinite | ⟨text, hdecoded⟩
    · exact hfinite x hx
    · obtain ⟨j, hparsed, hread⟩ := Option.bind_eq_some_iff.mp hdecoded
      exact Sheet.isFinite_of_ofJson? ⟨_, bounded_of_parse? hparsed⟩ hread x hx

/-- A form with styles, protection and a rule of each kind.  One text has quotes and a
    tab in it, which are escaped. -/
def formSheet : Sheet where
  name := "Form"
  rows := [["Amount", "Note"], ["", "\t\"quoted\""]]
  cellStyles := [⟨1, 1, { bold := true, fill := some "#EEEEEE" }⟩, ⟨1, 2, {}⟩]
  columnStyles := [⟨2, { locked := true }⟩]
  validations := [
    ⟨"A2:A9", .decimal ⟨0x3FB999999999999A⟩, false, some ⟨"Amount", "At least 0.1."⟩⟩,
    ⟨"B2", .wholeNumber (Int64.ofInt (-1)), true, none⟩,
    ⟨"C2", .date { year := 2023, month := 10, day := 31 }, true, none⟩,
    ⟨"D2", .list ["a", "b"], true, none⟩,
    ⟨"E2", .custom "=A2>0", true, none⟩]
  protection := some ⟨false, false, true, true, true, false, true, true⟩

/-- The form comes back: its only double is one tenth.  Its digits are few, so that they
    can be read back by evaluation. -/
theorem Json.models_comeBack_formSheet :
    (∀ x ∈ formSheet.leastDecimals, x.isFinite = true)
      ∧ (∀ x ∈ formSheet.leastDecimals, IsRestored x)
      ∧ ComesBack Sheet.toJson Sheet.ofJson? formSheet := by
  have hfinite : ∀ x ∈ formSheet.leastDecimals, x.isFinite = true := by decide
  have hrestored : ∀ x ∈ formSheet.leastDecimals, IsRestored x := by decide +kernel
  refine ⟨hfinite, hrestored, ?_⟩
  exact models_comeBack.2.2.2.2 formSheet (fun x hx _ => hrestored x hx) (.inl hfinite)

end Gridbase
