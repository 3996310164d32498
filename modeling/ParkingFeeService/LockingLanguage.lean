/-
**The commands that the locking service executes.**

A payload is executed if it is read as a command and the command is valid.  The well-formed ones are
objects with a non-empty id, one of two strings for an action and the driver's door for the only
doors.  The derived reading is wider and narrower: it takes the fields from an array, in their
order, it takes an action from an object with one entry, and it takes no object in which a field of
the command is repeated.

Main definitions:

* `LockingService.readLockCommand` — the derived reading of any value;
* `LockingService.WellFormed` — the values that are to be executed;
* `LockingService.FieldsOk`, `LockingService.ItemsOk` — the values of the fields, from an object and
  from an array;
* `LockingService.ReadAsMeant` — the values on which the reading is as wide as it should be.

Main results:

* `LockingService.executes_obj_iff`, `LockingService.executes_arr_iff` — what is executed;
* `LockingService.array_is_executed` — a command that is no object;
* `LockingService.executes_iff_wellFormed_iff` — which values are executed as they should be.
-/

import ParkingFeeService.LockingPayload

set_option relaxedAutoImplicit false
set_option autoImplicit false

namespace LockingService

open Json (occurrences)

/-! ### The reading of any value -/

/-- The typed reading of an array: the fields in their order, none left out and none too many. -/
def readItems : List Json → Option LockCommand
  | [commandId, action, doors, source, vin, timestamp] => do
      return ⟨← commandId.asStr, ← asAction action, ← doors.strings, ← optional Json.asStr source,
        ← optional Json.asStr vin, ← optional asI64 timestamp⟩
  | _ => none

/-- The typed reading of a value. -/
def readLockCommand : Json → Option LockCommand
  | .obj fields => (deserializeLockCommand fields).toOption
  | .arr items => readItems items
  | _ => none

/-- The typed reading of a text is the derived one of its value. -/
def SerdeJson.Derived (serde : SerdeJson) : Prop :=
  ∀ {text : String} {v : Json}, serde.value text = .ok v →
    ∀ cmd, serde.command text = .ok cmd ↔ readLockCommand v = some cmd

/-- The text is parsed as a command, which is valid. -/
def Executes (serde : SerdeJson) (text : String) : Prop :=
  ∃ cmd, parseCommand serde text = .ok cmd ∧ validateCommand cmd = .ok ()

/-! ### Well-formed values -/

/-- The name of an action. -/
def ActionName (v : Json) : Prop := v = .str "lock" ∨ v = .str "unlock"

/-- An object with the name of an action for its only field, and `null` under it. -/
def ActionEntry (v : Json) : Prop := v = .obj [("lock", .null)] ∨ v = .obj [("unlock", .null)]

/-- At least one door, and no other than the driver's. -/
def DriverOnly (items : List Json) : Prop := items ≠ [] ∧ ∀ item ∈ items, item = .str "driver"

def IsStr (v : Json) : Prop := ∃ s, v = .str s

/-- An integer of 64 bits. -/
def IsI64 (v : Json) : Prop := ∃ n : ℤ, v = .num (.int n) ∧ -2 ^ 63 ≤ n ∧ n < 2 ^ 63

/-- The fields of an object, as the generic reading finds them, with an action of the given kind. -/
def FieldsOk (action : Json → Prop) (fields : List (String × Json)) : Prop :=
  (∃ s, Json.get fields "command_id" = some (.str s) ∧ s ≠ "") ∧
    (∃ v, Json.get fields "action" = some v ∧ action v) ∧
    (∃ items, Json.get fields "doors" = some (.arr items) ∧ DriverOnly items) ∧
    (∀ v, Json.get fields "source" = some v → v = .null ∨ IsStr v) ∧
    (∀ v, Json.get fields "vin" = some v → v = .null ∨ IsStr v) ∧
    ∀ v, Json.get fields "timestamp" = some v → v = .null ∨ IsI64 v

/-- The fields of an array. -/
def ItemsOk (items : List Json) : Prop :=
  ∃ s action doors source vin timestamp,
    items = [.str s, action, .arr doors, source, vin, timestamp] ∧ s ≠ "" ∧
      (ActionName action ∨ ActionEntry action) ∧ DriverOnly doors ∧
      (source = .null ∨ IsStr source) ∧ (vin = .null ∨ IsStr vin) ∧
      (timestamp = .null ∨ IsI64 timestamp)

/-- A well-formed command: an object with its fields as they should be. -/
def WellFormed (v : Json) : Prop := ∃ fields, v = .obj fields ∧ FieldsOk ActionName fields

/-- A field of the command is repeated. -/
def Repeats (fields : List (String × Json)) : Prop :=
  ∃ name ∈ commandFields, 1 < (occurrences name fields).length

/-- The value is no command in an array; if it is an object with its fields as they should be, none
is repeated; and if its action alone is not as it should be, but an entry, then one is. -/
def ReadAsMeant : Json → Prop
  | .obj fields =>
      (FieldsOk ActionName fields → ¬ Repeats fields) ∧
        (FieldsOk ActionEntry fields → Repeats fields)
  | .arr items => ¬ ItemsOk items
  | _ => True

/-! ### The readers of the fields -/

theorem isSome_asAction_iff {v : Json} :
    (asAction v).isSome = true ↔ ActionName v ∨ ActionEntry v := by
  constructor
  · intro h
    rw [asAction.eq_def] at h
    split at h
    · exact .inl (.inl rfl)
    · exact .inl (.inr rfl)
    · exact .inr (.inl rfl)
    · exact .inr (.inr rfl)
    · cases h
  · rintro ((rfl | rfl) | (rfl | rfl)) <;> rfl

theorem isSome_optional_iff {α : Type} {read : Json → Option α} {v : Json} :
    (optional read v).isSome = true ↔ v = .null ∨ (read v).isSome = true := by
  cases v <;> simp [optional]

theorem isSome_asStr_iff {v : Json} : v.asStr.isSome = true ↔ IsStr v := by
  simp [Option.isSome_iff_exists, IsStr]

theorem isSome_asI64_iff {v : Json} : (asI64 v).isSome = true ↔ IsI64 v := by
  constructor
  · intro h
    rw [asI64.eq_def] at h
    split at h
    · next n =>
        split at h
        · next hn => exact ⟨n, rfl, hn⟩
        · cases h
    · cases h
  · rintro ⟨n, rfl, hn⟩
    rw [asI64, if_pos hn]
    rfl

theorem strings_eq_some_iff {v : Json} {ss : List String} :
    v.strings = some ss ↔ v = Json.ofStrings ss := by
  cases v with
  | arr items =>
      simp only [Json.strings, Json.ofStrings, Json.arr.injEq]
      induction items generalizing ss with
      | nil => cases ss <;> simp
      | cons item items ih => cases ss <;> simp [List.mapM_cons, Option.bind_eq_some_iff, ih]
  | null | bool | num | str | obj => simp [Json.strings, Json.ofStrings]

theorem driverOnly_map_iff {ss : List String} :
    DriverOnly (ss.map .str) ↔ ss ≠ [] ∧ ∀ s ∈ ss, s = "driver" := by
  simp [DriverOnly]

/-- **When a command is valid.** -/
theorem validateCommand_eq_ok_iff {cmd : LockCommand} :
    validateCommand cmd = .ok () ↔
      cmd.commandId ≠ "" ∧ cmd.doors ≠ [] ∧ ∀ door ∈ cmd.doors, door = "driver" := by
  rw [validateCommand]
  by_cases hid : cmd.commandId = ""
  · simp [hid]
  · rw [if_neg hid]
    cases hfind : cmd.doors.find? (· ≠ "driver") with
    | some door =>
        have hdoor := List.find?_some hfind
        have hmem := List.mem_of_find?_eq_some hfind
        refine iff_of_false (by simp) fun h => ?_
        simp [h.2.2 door hmem] at hdoor
    | none =>
        have hall : ∀ door ∈ cmd.doors, door = "driver" := by
          simpa using List.find?_eq_none.1 hfind
        have hmem : "driver" ∈ cmd.doors ↔ cmd.doors ≠ [] := by
          refine ⟨List.ne_nil_of_mem, fun hne => ?_⟩
          obtain ⟨door, hdoor⟩ := List.exists_mem_of_ne_nil _ hne
          exact hall door hdoor ▸ hdoor
        by_cases hnil : cmd.doors = []
        · simp [hnil]
        · rw [if_pos (hmem.2 hnil)]
          exact iff_of_true rfl ⟨hid, hnil, hall⟩

/-! ### What is executed -/

theorem not_repeats_iff {fields : List (String × Json)} :
    ¬ Repeats fields ↔
      (occurrences "command_id" fields).length ≤ 1 ∧ (occurrences "action" fields).length ≤ 1 ∧
        (occurrences "doors" fields).length ≤ 1 ∧ (occurrences "source" fields).length ≤ 1 ∧
        (occurrences "vin" fields).length ≤ 1 ∧ (occurrences "timestamp" fields).length ≤ 1 := by
  simp [Repeats, commandFields]

/-- **An object is executed exactly if its fields are as they should be,** up to the ways to write
an action, and no field of the command is repeated. -/
theorem executes_obj_iff {fields : List (String × Json)} :
    (∃ cmd, deserializeLockCommand fields = .ok cmd ∧ validateCommand cmd = .ok ()) ↔
      FieldsOk (fun v => ActionName v ∨ ActionEntry v) fields ∧ ¬ Repeats fields := by
  constructor
  · rintro ⟨cmd, hcmd, hvalid⟩
    obtain ⟨hid, hne, hdoors⟩ := validateCommand_eq_ok_iff.1 hvalid
    obtain ⟨⟨hid₁, haction₁, hdoors₁⟩, hsource, hvin, htimestamp⟩ :=
      deserializeLockCommand_ok_iff.1 ⟨cmd, hcmd⟩
    obtain ⟨⟨v, hv, hvs⟩, ⟨a, ha, has⟩, w, hw, hws⟩ := required_of_ok hcmd
    rw [Json.atMostOnce_iff] at hsource hvin htimestamp
    refine ⟨⟨⟨cmd.commandId, ?_, hid⟩, ⟨a, Json.get_of_occurrences ha, ?_⟩, ?_, ?_⟩, ?_⟩
    · rw [Json.get_of_occurrences hv, Json.asStr_eq_some_iff.1 hvs]
    · exact isSome_asAction_iff.1 (by rw [has]; rfl)
    · refine ⟨cmd.doors.map .str, ?_, driverOnly_map_iff.2 ⟨hne, hdoors⟩⟩
      rw [Json.get_of_occurrences hw, strings_eq_some_iff.1 hws, Json.ofStrings]
    · simp only [← isSome_asStr_iff, ← isSome_asI64_iff, ← isSome_optional_iff]
      exact ⟨hsource.2, hvin.2, htimestamp.2⟩
    · rw [not_repeats_iff]
      exact ⟨(Json.once_iff.1 hid₁).1, (Json.once_iff.1 haction₁).1, (Json.once_iff.1 hdoors₁).1,
        hsource.1, hvin.1, htimestamp.1⟩
  · rintro ⟨⟨⟨s, hs, hne⟩, ⟨a, ha, haction⟩, ⟨items, hitems, hdriver⟩, hmeta⟩, hrepeats⟩
    obtain ⟨hid₁, haction₁, hdoors₁, hsource₁, hvin₁, htimestamp₁⟩ := not_repeats_iff.1 hrepeats
    simp only [← isSome_asStr_iff, ← isSome_asI64_iff, ← isSome_optional_iff] at hmeta
    obtain ⟨hsource, hvin, htimestamp⟩ := hmeta
    have hstrings : (Json.arr items).strings.isSome = true :=
      Json.isSome_strings_iff.2 ⟨items, rfl, fun item hitem => ⟨_, hdriver.2 item hitem⟩⟩
    obtain ⟨cmd, hcmd⟩ := deserializeLockCommand_ok_iff.2
      ⟨⟨Json.once_iff.2 ⟨hid₁, _, hs, rfl⟩,
          Json.once_iff.2 ⟨haction₁, a, ha, isSome_asAction_iff.2 haction⟩,
          Json.once_iff.2 ⟨hdoors₁, _, hitems, hstrings⟩⟩,
        Json.atMostOnce_iff.2 ⟨hsource₁, hsource⟩, Json.atMostOnce_iff.2 ⟨hvin₁, hvin⟩,
        Json.atMostOnce_iff.2 ⟨htimestamp₁, htimestamp⟩⟩
    obtain ⟨⟨v, hv, hvs⟩, -, w, hw, hws⟩ := required_of_ok hcmd
    refine ⟨cmd, hcmd, validateCommand_eq_ok_iff.2 ⟨?_, ?_⟩⟩
    · have hid : Json.str s = .str cmd.commandId := by
        rw [← Json.asStr_eq_some_iff.1 hvs]
        exact Option.some.inj (hs.symm.trans (Json.get_of_occurrences hv))
      rwa [← Json.str.inj hid]
    · have hdoors : Json.arr items = Json.ofStrings cmd.doors := by
        rw [← strings_eq_some_iff.1 hws]
        exact Option.some.inj (hitems.symm.trans (Json.get_of_occurrences hw))
      rw [Json.arr.inj hdoors] at hdriver
      exact driverOnly_map_iff.1 hdriver

theorem readItems_eq_some_iff {commandId action doors source vin timestamp : Json}
    {cmd : LockCommand} :
    readItems [commandId, action, doors, source, vin, timestamp] = some cmd ↔
      commandId.asStr = some cmd.commandId ∧ asAction action = some cmd.action ∧
        doors.strings = some cmd.doors ∧ optional Json.asStr source = some cmd.source ∧
        optional Json.asStr vin = some cmd.vin ∧ optional asI64 timestamp = some cmd.timestamp := by
  obtain ⟨commandId', action', doors', source', vin', timestamp'⟩ := cmd
  simp [readItems, Option.bind_eq_some_iff]

/-- **An array is executed exactly if its items are the fields, as they should be,** up to the ways
to write an action. -/
theorem executes_arr_iff {items : List Json} :
    (∃ cmd, readItems items = some cmd ∧ validateCommand cmd = .ok ()) ↔ ItemsOk items := by
  constructor
  · rintro ⟨cmd, hcmd, hvalid⟩
    obtain ⟨hid, hne, hdoors⟩ := validateCommand_eq_ok_iff.1 hvalid
    rw [readItems.eq_def] at hcmd
    split at hcmd
    · obtain ⟨hs, haction, hstrings, hsource, hvin, htimestamp⟩ := readItems_eq_some_iff.1 hcmd
      rw [Json.asStr_eq_some_iff] at hs
      rw [strings_eq_some_iff] at hstrings
      refine ⟨cmd.commandId, _, cmd.doors.map .str, _, _, _, by rw [hs, hstrings, Json.ofStrings],
        hid, isSome_asAction_iff.1 (by rw [haction]; rfl), driverOnly_map_iff.2 ⟨hne, hdoors⟩, ?_⟩
      simp only [← isSome_asStr_iff, ← isSome_asI64_iff, ← isSome_optional_iff, hsource, hvin,
        htimestamp, Option.isSome_some, and_self]
    · cases hcmd
  · rintro ⟨s, action, doors, source, vin, timestamp, rfl, hs, haction, hdoors, hsource, hvin,
      htimestamp⟩
    simp only [← isSome_asStr_iff, ← isSome_optional_iff] at hsource hvin
    rw [← isSome_asI64_iff, ← isSome_optional_iff] at htimestamp
    have hstrings : (Json.arr doors).strings.isSome = true :=
      Json.isSome_strings_iff.2 ⟨doors, rfl, fun item hitem => ⟨_, hdoors.2 item hitem⟩⟩
    obtain ⟨act, hact⟩ := Option.isSome_iff_exists.1 (isSome_asAction_iff.2 haction)
    obtain ⟨ss, hss⟩ := Option.isSome_iff_exists.1 hstrings
    obtain ⟨source', hsource⟩ := Option.isSome_iff_exists.1 hsource
    obtain ⟨vin', hvin⟩ := Option.isSome_iff_exists.1 hvin
    obtain ⟨timestamp', htimestamp⟩ := Option.isSome_iff_exists.1 htimestamp
    refine ⟨⟨s, act, ss, source', vin', timestamp'⟩,
      readItems_eq_some_iff.2 ⟨rfl, hact, hss, hsource, hvin, htimestamp⟩,
      validateCommand_eq_ok_iff.2 ⟨hs, ?_⟩⟩
    rw [Json.arr.inj (strings_eq_some_iff.1 hss)] at hdoors
    exact driverOnly_map_iff.1 hdoors

/-! ### What is to be executed -/

theorem FieldsOk.mono {p q : Json → Prop} (h : ∀ v, p v → q v) {fields : List (String × Json)}
    (hp : FieldsOk p fields) : FieldsOk q fields := by
  obtain ⟨hid, ⟨v, hv, hpv⟩, hrest⟩ := hp
  exact ⟨hid, ⟨v, hv, h v hpv⟩, hrest⟩

theorem fieldsOk_or_iff {p q : Json → Prop} {fields : List (String × Json)} :
    FieldsOk (fun v => p v ∨ q v) fields ↔ FieldsOk p fields ∨ FieldsOk q fields := by
  constructor
  · rintro ⟨hid, ⟨v, hv, hp | hq⟩, hrest⟩
    · exact .inl ⟨hid, ⟨v, hv, hp⟩, hrest⟩
    · exact .inr ⟨hid, ⟨v, hv, hq⟩, hrest⟩
  · rintro (h | h)
    · exact h.mono fun v => .inl
    · exact h.mono fun v => .inr

/-- An action is written in one way only. -/
theorem not_fieldsOk_both {fields : List (String × Json)} (hname : FieldsOk ActionName fields) :
    ¬ FieldsOk ActionEntry fields := by
  rintro ⟨-, ⟨v, hv, hentry⟩, -⟩
  obtain ⟨-, ⟨w, hw, hname⟩, -⟩ := hname
  obtain rfl : v = w := Option.some.inj (hv.symm.trans hw)
  rcases hentry with rfl | rfl <;> rcases hname with hname | hname <;> cases hname

section Text

variable {serde : SerdeJson} (hserde : serde.Derived) {text : String} {v : Json}

include hserde

/-- A text is executed if the derived reading of its value gives a valid command. -/
theorem executes_iff (hvalue : serde.value text = .ok v) :
    Executes serde text ↔ ∃ cmd, readLockCommand v = some cmd ∧ validateCommand cmd = .ok () := by
  refine exists_congr fun cmd => and_congr_left fun _ => ?_
  rw [← hserde hvalue, parseCommand]
  cases serde.command text with
  | ok cmd' => simp
  | error e => by_cases hcat : e.category = .syntaxError ∨ e.category = .eof <;> simp [hcat]

/-- **Which values are executed as they should be.** -/
theorem executes_iff_wellFormed_iff (hvalue : serde.value text = .ok v) :
    (Executes serde text ↔ WellFormed v) ↔ ReadAsMeant v := by
  rw [executes_iff hserde hvalue]
  cases v with
  | obj fields =>
      have hread :
          (∃ cmd, readLockCommand (.obj fields) = some cmd ∧ validateCommand cmd = .ok ()) ↔
            FieldsOk (fun v => ActionName v ∨ ActionEntry v) fields ∧ ¬ Repeats fields := by
        rw [← executes_obj_iff]
        refine exists_congr fun cmd => and_congr_left fun _ => ?_
        rw [readLockCommand]
        cases deserializeLockCommand fields <;> simp [Except.toOption]
      have hwell : WellFormed (.obj fields) ↔ FieldsOk ActionName fields := by
        simp [WellFormed]
      rw [hread, hwell, fieldsOk_or_iff, ReadAsMeant]
      by_cases hname : FieldsOk ActionName fields
      · simp [hname, not_fieldsOk_both hname]
      · simp [hname]
  | arr items =>
      have hwell : ¬ WellFormed (.arr items) := by simp [WellFormed]
      rw [ReadAsMeant, ← executes_arr_iff]
      exact ⟨fun h hex => hwell (h.1 hex), fun hnot => iff_of_false hnot hwell⟩
  | null | bool | num | str =>
      refine iff_of_true (iff_of_false ?_ ?_) trivial
      · rintro ⟨cmd, ⟨⟩, -⟩
      · rintro ⟨fields, ⟨⟩, -⟩

end Text

/-! ### A command in an array -/

/-- The readings of one text. -/
def SerdeJson.reading (text : String) (v : Json) : SerdeJson where
  value := fun t => if t = text then .ok v else .error ⟨.eof, "EOF while parsing a value"⟩
  command := fun t =>
    if t = text then
      match readLockCommand v with
      | some cmd => .ok cmd
      | none => .error ⟨.data, "invalid LockCommand"⟩
    else .error ⟨.eof, "EOF while parsing a value"⟩

theorem SerdeJson.reading_derived (text : String) (v : Json) :
    (SerdeJson.reading text v).Derived := by
  intro t w h cmd
  have ht : t = text := by
    by_contra hne
    simp [reading, hne] at h
  obtain rfl : v = w := by simpa [reading, ht] using h
  simp only [reading, ht, if_pos]
  cases readLockCommand v <;> simp

theorem SerdeJson.reading_value (text : String) (v : Json) :
    (SerdeJson.reading text v).value text = .ok v :=
  if_pos rfl

/-- The fields of a command in an array. -/
def arrayPayload : Json :=
  .arr [.str "cmd-1", .str "lock", .arr [.str "driver"], .null, .null, .null]

/-- **A command that is no object is executed.** -/
theorem array_is_executed :
    ¬ ∀ (serde : SerdeJson), serde.Derived → ∀ (text : String) (v : Json),
      serde.value text = .ok v → (Executes serde text ↔ WellFormed v) := by
  intro h
  have hiff := h (.reading "[\"cmd-1\",\"lock\",[\"driver\"],null,null,null]" arrayPayload)
    (SerdeJson.reading_derived _ _) _ arrayPayload (SerdeJson.reading_value _ _)
  obtain ⟨fields, hfields, -⟩ := hiff.1 ⟨⟨"cmd-1", .lock, ["driver"], none, none, none⟩, rfl, rfl⟩
  cases hfields

/-- The same fields in an object. -/
def objectPayload : Json :=
  .obj [("command_id", .str "cmd-1"), ("action", .str "lock"), ("doors", .arr [.str "driver"])]

/-- The text of an object. -/
def objectText : String :=
  "\x7b\"command_id\":\"cmd-1\",\"action\":\"lock\",\"doors\":[\"driver\"]\x7d"

theorem executes_iff_wellFormed_object :
    (Executes (.reading objectText objectPayload) objectText ↔ WellFormed objectPayload) ↔
      ReadAsMeant objectPayload :=
  executes_iff_wellFormed_iff (SerdeJson.reading_derived _ _) (SerdeJson.reading_value _ _)

end LockingService
