/-
**The commands that the vehicle's gateway client accepts.**

A payload is to be accepted if it is an object with a non-empty `command_id`, one of the two actions
and an array of doors, whatever is in that array.  The client checks this on the generic reading,
and then reads the same bytes as a typed command, whose doors are strings and whose fields may each
occur once.  A payload of the language is accepted only if it passes that as well.

Main definitions:

* `CloudGatewayClient.Specified` — the language;
* `CloudGatewayClient.TypedReadable` — what the typed reading asks for on top of it.

Main results:

* `CloudGatewayClient.deserializeCommand_ok_iff` — when the typed reading succeeds;
* `CloudGatewayClient.accepts_specified_iff` — when a payload is treated as the language says;
* `CloudGatewayClient.door_number_rejected` — a payload of the language that is rejected.
-/

import ParkingFeeService.VehicleCommand

set_option relaxedAutoImplicit false
set_option autoImplicit false

namespace CloudGatewayClient

open Json (Visits Once occurrences)

/-! ### The language -/

/-- The payloads to be accepted. -/
def Specified (v : Json) : Prop :=
  ∃ fields, v = .obj fields ∧
    (∃ s, s ≠ "" ∧ Json.get fields "command_id" = some (.str s)) ∧
    (Json.get fields "action" = some (.str "lock") ∨
      Json.get fields "action" = some (.str "unlock")) ∧
    ∃ items, Json.get fields "doors" = some (.arr items)

/-- The doors are strings, and no field of the command is repeated. -/
def TypedReadable (v : Json) : Prop :=
  ∀ fields, v = .obj fields →
    (∀ items, Json.get fields "doors" = some (.arr items) → ∀ item ∈ items, ∃ s, item = .str s) ∧
    ∀ name ∈ ["command_id", "action", "doors"], (occurrences name fields).length ≤ 1

/-! ### The typed reading -/

/-- What the typed reading does to each field of the command. -/
def Reads (d : PayloadDraft) (fields : List (String × Json)) (d' : PayloadDraft) : Prop :=
  Visits "command_id" Json.asStr d.commandId fields d'.commandId ∧
    Visits "action" Json.asStr d.action fields d'.action ∧
    Visits "doors" Json.strings d.doors fields d'.doors ∧
    d'.extra = d.extra ++ fields.filter fun field => field.1 ∉ ["command_id", "action", "doors"]

theorem reads_nil (d d' : PayloadDraft) : Reads d [] d' ↔ d' = d := by
  simp only [Reads, Json.visits_nil, List.filter_nil, List.append_nil]
  cases d
  cases d'
  simp

theorem reads_cons (d : PayloadDraft) (field : String × Json) (fields : List (String × Json))
    (d' : PayloadDraft) :
    Reads d (field :: fields) d' ↔ ∃ d₁, visitField d field = .ok d₁ ∧ Reads d₁ fields d' := by
  obtain ⟨name, v⟩ := field
  by_cases hid : name = "command_id"
  · subst hid
    simp only [visitField, visit_bind_eq_ok_iff, Reads, Json.visits_cons_self]
    rw [Json.visits_cons_of_ne (by decide), Json.visits_cons_of_ne (by decide),
      List.filter_cons_of_neg (by simp)]
    constructor
    · rintro ⟨⟨hnone, a, ha, hid⟩, hrest⟩
      exact ⟨_, ⟨hnone, a, ha, rfl⟩, hid, hrest⟩
    · rintro ⟨_, ⟨hnone, a, ha, rfl⟩, hid, hrest⟩
      exact ⟨⟨hnone, a, ha, hid⟩, hrest⟩
  by_cases haction : name = "action"
  · subst haction
    simp only [visitField, visit_bind_eq_ok_iff, Reads, Json.visits_cons_self]
    rw [Json.visits_cons_of_ne (by decide), Json.visits_cons_of_ne (by decide),
      List.filter_cons_of_neg (by simp)]
    constructor
    · rintro ⟨hid, ⟨hnone, a, ha, haction⟩, hrest⟩
      exact ⟨_, ⟨hnone, a, ha, rfl⟩, hid, haction, hrest⟩
    · rintro ⟨_, ⟨hnone, a, ha, rfl⟩, hid, haction, hrest⟩
      exact ⟨hid, ⟨hnone, a, ha, haction⟩, hrest⟩
  by_cases hdoors : name = "doors"
  · subst hdoors
    simp only [visitField, visit_bind_eq_ok_iff, Reads, Json.visits_cons_self]
    rw [Json.visits_cons_of_ne (by decide), Json.visits_cons_of_ne (by decide),
      List.filter_cons_of_neg (by simp)]
    constructor
    · rintro ⟨hid, haction, ⟨hnone, a, ha, hdoors⟩, hrest⟩
      exact ⟨_, ⟨hnone, a, ha, rfl⟩, hid, haction, hdoors, hrest⟩
    · rintro ⟨_, ⟨hnone, a, ha, rfl⟩, hid, haction, hdoors, hrest⟩
      exact ⟨hid, haction, ⟨hnone, a, ha, hdoors⟩, hrest⟩
  · -- a field that is not the command's is kept as it is
    have hother : visitField d (name, v) = .ok { d with extra := d.extra ++ [(name, v)] } := by
      rw [visitField]
      split <;> first | contradiction | rfl
    rw [hother]
    simp only [Reads, Json.visits_cons_of_ne hid, Json.visits_cons_of_ne haction,
      Json.visits_cons_of_ne hdoors]
    rw [List.filter_cons_of_pos (by simp [hid, haction, hdoors])]
    constructor
    · rintro ⟨hid', haction', hdoors', hextra⟩
      exact ⟨_, rfl, hid', haction', hdoors', by simpa using hextra⟩
    · rintro ⟨_, hd, hid', haction', hdoors', hextra⟩
      cases hd
      exact ⟨hid', haction', hdoors', by simpa using hextra⟩

/-- **When the typed reading succeeds**: each field of the command is there once, with a value of
its type. -/
theorem deserializeCommand_ok_iff {fields : List (String × Json)} :
    (∃ cmd, deserializeCommand fields = .ok cmd) ↔
      Once "command_id" Json.asStr fields ∧ Once "action" Json.asStr fields ∧
        Once "doors" Json.strings fields := by
  simp only [← Json.exists_visits_some_iff]
  constructor
  · rintro ⟨cmd, h⟩
    obtain ⟨d, hd, h⟩ := Except.bind_eq_ok_iff.1 h
    obtain ⟨hid, haction, hdoors, -⟩ := (Except.foldlM_eq_ok_iff reads_nil reads_cons).1 hd
    obtain ⟨commandId, action, doors, extra⟩ := d
    cases commandId with
    | none => cases h
    | some s =>
        cases action with
        | none => cases h
        | some action =>
            cases doors with
            | none => cases h
            | some doors => exact ⟨⟨s, hid⟩, ⟨action, haction⟩, ⟨doors, hdoors⟩⟩
  · rintro ⟨⟨s, hid⟩, ⟨action, haction⟩, ⟨doors, hdoors⟩⟩
    refine ⟨⟨s, action, doors, _⟩, Except.bind_eq_ok_iff.2 ⟨⟨some s, some action, some doors, _⟩,
      (Except.foldlM_eq_ok_iff reads_nil reads_cons).2 ⟨hid, haction, hdoors, rfl⟩, rfl⟩⟩

/-! ### Acceptance -/

theorem checkAction_eq_ok_iff {fields : List (String × Json)} :
    checkAction fields = .ok () ↔ Json.get fields "action" = some (.str "lock") ∨
      Json.get fields "action" = some (.str "unlock") := by
  have hget : ∀ s, Json.get fields "action" = some (.str s) ↔
      (Json.get fields "action").bind Json.asStr = some s := by
    simp [Option.bind_eq_some_iff]
  rw [hget, hget, checkAction]
  split
  · next h => simp [h]
  · next h => simp [h]
  · next other hlock hunlock h =>
      rw [h]
      refine iff_of_false (by simp) ?_
      rintro (hother | hother)
      · exact hlock (Option.some.inj hother)
      · exact hunlock (Option.some.inj hother)
  · next h => simp [h]

theorem checkDoors_eq_ok_iff {fields : List (String × Json)} :
    checkDoors fields = .ok () ↔ ∃ items, Json.get fields "doors" = some (.arr items) := by
  have hget : ∀ items, Json.get fields "doors" = some (.arr items) ↔
      (Json.get fields "doors").bind Json.asArr = some items := by
    simp [Option.bind_eq_some_iff]
  simp only [hget, checkDoors]
  split
  · next items h => simp [h]
  · next h => simp [h]

/-- The generic reading checks the language. -/
theorem specified_obj_iff {fields : List (String × Json)} :
    Specified (.obj fields) ↔
      checkCommandId fields = .ok () ∧ checkAction fields = .ok () ∧
        checkDoors fields = .ok () := by
  rw [checkCommandId_eq_ok_iff, checkAction_eq_ok_iff, checkDoors_eq_ok_iff]
  simp [Specified, Option.bind_eq_some_iff]

/-- A payload of the language passes the typed reading exactly if its doors are strings and no field
of the command is repeated. -/
theorem once_iff_typedReadable {fields : List (String × Json)} (h : Specified (.obj fields)) :
    (Once "command_id" Json.asStr fields ∧ Once "action" Json.asStr fields ∧
      Once "doors" Json.strings fields) ↔ TypedReadable (.obj fields) := by
  obtain ⟨fields', hfields, ⟨s, -, hid⟩, haction, items, hdoors⟩ := h
  cases hfields
  have hact : ∃ action, Json.get fields "action" = some (.str action) := by
    rcases haction with haction | haction
    · exact ⟨_, haction⟩
    · exact ⟨_, haction⟩
  obtain ⟨action, haction⟩ := hact
  rw [Json.once_iff_of_get hid, Json.once_iff_of_get haction, Json.once_iff_of_get hdoors,
    Json.isSome_strings_iff]
  constructor
  · rintro ⟨⟨hone, -⟩, ⟨hone', -⟩, hone'', items', hitems, hstrings⟩ fields' hfields
    cases hfields
    cases hitems
    refine ⟨fun items' hitems' => ?_, ?_⟩
    · rw [hdoors] at hitems'
      cases hitems'
      exact hstrings
    · simp [hone, hone', hone'']
  · intro htyped
    obtain ⟨hstrings, hnames⟩ := htyped fields rfl
    exact ⟨⟨hnames _ (by simp), rfl⟩, ⟨hnames _ (by simp), rfl⟩, hnames _ (by simp), items, rfl,
      hstrings items hdoors⟩

/-- A payload is accepted exactly if it is in the language and passes the typed reading. -/
theorem validateCommandPayload_ok_iff {v : Json} :
    (∃ cmd, validateCommandPayload (some v) = .ok cmd) ↔ Specified v ∧ TypedReadable v := by
  cases v with
  | obj fields =>
      rw [specified_obj_iff]
      constructor
      · rintro ⟨cmd, h⟩
        obtain ⟨⟨⟩, hid, h⟩ := Except.bind_eq_ok_iff.1 h
        obtain ⟨⟨⟩, haction, h⟩ := Except.bind_eq_ok_iff.1 h
        obtain ⟨⟨⟩, hdoors, h⟩ := Except.bind_eq_ok_iff.1 h
        refine ⟨⟨hid, haction, hdoors⟩, ?_⟩
        rw [← once_iff_typedReadable (specified_obj_iff.2 ⟨hid, haction, hdoors⟩),
          ← deserializeCommand_ok_iff]
        split at h
        · next cmd' hcmd' => exact ⟨cmd', hcmd'⟩
        · cases h
      · rintro ⟨hchecks, htyped⟩
        obtain ⟨cmd, hcmd⟩ := deserializeCommand_ok_iff.2
          ((once_iff_typedReadable (specified_obj_iff.2 hchecks)).2 htyped)
        obtain ⟨hid, haction, hdoors⟩ := hchecks
        refine ⟨cmd, Except.bind_eq_ok_iff.2 ⟨(), hid, Except.bind_eq_ok_iff.2 ⟨(), haction,
          Except.bind_eq_ok_iff.2 ⟨(), hdoors, ?_⟩⟩⟩⟩
        rw [hcmd]
  | null | bool | num | str | arr =>
      refine iff_of_false ?_ ?_
      · rintro ⟨cmd, ⟨⟩⟩
      · rintro ⟨⟨fields, ⟨⟩, -⟩, -⟩

/-- **A payload is accepted exactly if it is in the language**, provided that a payload of the
language has strings for doors and does not repeat a field of the command. -/
theorem accepts_specified_iff (v : Json) :
    ((∃ cmd, validateCommandPayload (some v) = .ok cmd) ↔ Specified v) ↔
      (¬ Specified v ∨ TypedReadable v) := by
  rw [validateCommandPayload_ok_iff]
  by_cases h : Specified v
  · simp [h]
  · simp [h]

/-- **A command with a number among its doors is rejected.** -/
theorem door_number_rejected :
    ¬ ∀ v : Json, (∃ cmd, validateCommandPayload (some v) = .ok cmd) ↔ Specified v := by
  intro hall
  let fields : List (String × Json) :=
    [("command_id", .str "cmd-1"), ("action", .str "lock"), ("doors", .arr [.num (.int 1)])]
  obtain ⟨cmd, hcmd⟩ := (hall (.obj fields)).2
    ⟨fields, rfl, ⟨"cmd-1", by decide, rfl⟩, .inl rfl, _, rfl⟩
  cases hcmd

end CloudGatewayClient
