/-
**The bills of the parking operator.**

A stop computes the bill of its session anew, from the difference of two signed times taken as an
unsigned number.  It asks neither whether the session is already stopped nor which of the two times
comes first.  A stop dated before the start is billed as almost 2 ^ 64 seconds, and a stop that
comes later and bears another time changes a bill that was settled.

The ledger puts down, beside the sessions, the timestamps of the stops that were answered.

Main definitions:

* `ParkingOperator.Ledger`, `ParkingOperator.Ledger.serve` — the sessions and what was accepted;
* `ParkingOperator.SoundBilling` — every bill is that of the first stop, and stays so;
* `ParkingOperator.Ledger.Steady` — a request that spoils no bill.

Main results:

* `Int64.toNat_toUInt64_sub_eq_max_iff` — what an unsigned difference is;
* `ParkingOperator.Ledger.serve_cases` — what a request does to the ledger;
* `ParkingOperator.backdated_and_repeated_stops` — two histories with wrong bills;
* `ParkingOperator.soundBilling_iff` — when the bills are right.
-/

import ParkingFeeService.OperatorServer
import Mathlib.Algebra.Field.Rat
import Mathlib.Data.List.Induction

set_option relaxedAutoImplicit false
set_option autoImplicit false

namespace Int64

/-- A difference, as an unsigned number, is the difference of the values modulo `2 ^ 64`. -/
theorem toNat_toUInt64_sub (a b : Int64) :
    ((a - b).toUInt64.toNat : ℤ) = (a.toInt - b.toInt) % 2 ^ 64 := by
  have hlt : (a - b).toUInt64.toNat < 2 ^ 64 := UInt64.toNat_lt _
  have hsigned : (a - b).toInt = ((a - b).toUInt64.toNat : ℤ).bmod (2 ^ 64) :=
    BitVec.toInt_eq_toNat_bmod _
  rw [toInt_sub] at hsigned
  calc ((a - b).toUInt64.toNat : ℤ)
      = ((a - b).toUInt64.toNat : ℤ) % (2 ^ 64 : ℕ) :=
        (Int.emod_eq_of_lt (by omega) (by omega)).symm
    _ = ((a - b).toUInt64.toNat : ℤ).bmod (2 ^ 64) % (2 ^ 64 : ℕ) := Int.bmod_emod.symm
    _ = (a.toInt - b.toInt).bmod (2 ^ 64) % (2 ^ 64 : ℕ) := by rw [hsigned]
    _ = (a.toInt - b.toInt) % 2 ^ 64 := Int.bmod_emod

/-- An unsigned difference is the time from `b` to `a` exactly if `a` is not before `b`. -/
theorem toNat_toUInt64_sub_eq_max_iff {a b : Int64} :
    ((a - b).toUInt64.toNat : ℤ) = max 0 (a.toInt - b.toInt) ↔ b ≤ a := by
  have ha := a.toInt_lt
  have ha' := a.le_toInt
  have hb := b.toInt_lt
  have hb' := b.le_toInt
  rw [toNat_toUInt64_sub, le_iff_toInt_le]
  omega

theorem toUInt64_sub_inj {a b c : Int64} : (a - c).toUInt64 = (b - c).toUInt64 ↔ a = b := by
  constructor
  · intro h
    have hback := congrArg UInt64.toInt64 h
    rw [toInt64_toUInt64, toInt64_toUInt64] at hback
    exact (Int64.sub_left_inj c).1 hback
  · rintro rfl
    rfl

end Int64

namespace ParkingOperator

/-! ### The ledger -/

/-- A request, with its body as it was decoded. -/
inductive Request
  | start (body : Except String StartRequest)
  | stop (body : Except String StopRequest)

/-- The sessions, and the timestamps of the stops that were accepted for each, in their order. -/
structure Ledger where
  store : Store
  stops : String → List Int64

def newLedger : Ledger := ⟨newStore, fun _ => []⟩

namespace Ledger

/-- Serving a request. -/
def serve (uuids : Uuids) (l : Ledger) : Request → Ledger
  | .start body => { l with store := (handleStart uuids body l.store).2 }
  | .stop body =>
      { store := (handleStop body l.store).2
        stops :=
          match body, (handleStop body l.store).1 with
          | .ok req, .ok _ =>
              Function.update l.stops req.sessionId (l.stops req.sessionId ++ [req.timestamp])
          | _, _ => l.stops }

end Ledger

/-- The ledger after a history. -/
def ledgerAfter (uuids : Uuids) (rs : List Request) : Ledger :=
  rs.foldl (Ledger.serve uuids) newLedger

theorem ledgerAfter_concat (uuids : Uuids) (rs : List Request) (r : Request) :
    ledgerAfter uuids (rs ++ [r]) = (ledgerAfter uuids rs).serve uuids r := by
  simp [ledgerAfter]

/-! ### Bills -/

/-- The session is billed from its start to a stop at `timestamp`. -/
structure Session.BilledTo (session : Session) (timestamp : Int64) : Prop where
  duration : (session.duration.toNat : ℤ) = max 0 (timestamp.toInt - session.startTime.toInt)
  totalAmt : session.totalAmt = session.rate.amount * session.duration.toNat / 3600

namespace Ledger

/-- Every stopped session is billed to the first stop that was accepted for it. -/
def Billed (l : Ledger) : Prop :=
  ∀ id session, l.store.sessions id = some session → session.status = "stopped" →
    ∃ timestamp, (l.stops id).head? = some timestamp ∧ session.BilledTo timestamp

/-- The bills of the stopped sessions are still the same. -/
def BillsKept (l after : Ledger) : Prop :=
  ∀ id session, l.store.sessions id = some session → session.status = "stopped" →
    ∃ session', after.store.sessions id = some session' ∧ session'.duration = session.duration ∧
      session'.totalAmt = session.totalAmt

/-- A request that spoils no bill: a stop of an active session is not dated before its start, and a
stop of a stopped session bears the time at which it was stopped. -/
def Steady (l : Ledger) : Request → Prop
  | .stop (.ok req) => ∀ session, l.store.sessions req.sessionId = some session →
      (session.status = "active" → session.startTime ≤ req.timestamp) ∧
        (session.status = "stopped" → req.timestamp = session.stopTime)
  | _ => True

end Ledger

/-- **Billing is sound over a history:** after every request the stopped sessions are billed to
their first stop, and no request changes a bill that was there before it. -/
def SoundBilling (uuids : Uuids) (rs : List Request) : Prop :=
  (∀ p, p <+: rs → (ledgerAfter uuids p).Billed) ∧
    ∀ p r, p ++ [r] <+: rs → (ledgerAfter uuids p).BillsKept (ledgerAfter uuids (p ++ [r]))

/-! ### What a request does -/

namespace Ledger

variable {uuids : Uuids} {l : Ledger}

/-- The ledger with a new session. -/
def opened (uuids : Uuids) (l : Ledger) (req : StartRequest) : Ledger :=
  { l with store := (handleStart uuids (.ok req) l.store).2 }

/-- The ledger with a stop put down for a session. -/
def stopped (l : Ledger) (req : StopRequest) (session : Session) : Ledger where
  store :=
    { l.store with
      sessions :=
        Function.update l.store.sessions req.sessionId (some (session.stop req.timestamp)) }
  stops := Function.update l.stops req.sessionId (l.stops req.sessionId ++ [req.timestamp])

theorem serve_stop_of_known {req : StopRequest} {session : Session}
    (h : l.store.sessions req.sessionId = some session) :
    l.serve uuids (.stop (.ok req)) = l.stopped req session := by
  simp only [serve, handleStop, h, stopped]

/-- **What a request does to the ledger:** nothing, or it opens a session or stops a known one. -/
theorem serve_cases (uuids : Uuids) (l : Ledger) (r : Request) :
    l.serve uuids r = l ∨
      (∃ req, r = .start (.ok req) ∧ l.serve uuids r = l.opened uuids req) ∨
      ∃ req session, r = .stop (.ok req) ∧ l.store.sessions req.sessionId = some session ∧
        l.serve uuids r = l.stopped req session := by
  cases r with
  | start body =>
      cases body with
      | error e => exact .inl rfl
      | ok req => exact .inr (.inl ⟨req, rfl, rfl⟩)
  | stop body =>
      cases body with
      | error e => exact .inl rfl
      | ok req =>
          cases hsession : l.store.sessions req.sessionId with
          | none => exact .inl (by simp only [serve, handleStop, hsession])
          | some session =>
              exact .inr (.inr ⟨req, session, rfl, hsession, serve_stop_of_known hsession⟩)

/-- The new session. -/
theorem exists_sessions_opened (uuids : Uuids) (l : Ledger) (req : StartRequest) :
    ∃ session, (l.opened uuids req).store.sessions (uuids.gen l.store.created) = some session ∧
      session.status = "active" ∧ session.rate = defaultRate :=
  ⟨_, Function.update_self .., rfl, rfl⟩

theorem sessions_opened_of_ne (uuids : Uuids) (l : Ledger) (req : StartRequest) {id : String}
    (h : id ≠ uuids.gen l.store.created) :
    (l.opened uuids req).store.sessions id = l.store.sessions id :=
  Function.update_of_ne h ..

@[simp] theorem stops_opened (uuids : Uuids) (l : Ledger) (req : StartRequest) :
    (l.opened uuids req).stops = l.stops := rfl

@[simp] theorem sessions_stopped_self (l : Ledger) (req : StopRequest) (session : Session) :
    (l.stopped req session).store.sessions req.sessionId = some (session.stop req.timestamp) :=
  Function.update_self ..

theorem sessions_stopped_of_ne (l : Ledger) (req : StopRequest) (session : Session) {id : String}
    (h : id ≠ req.sessionId) :
    (l.stopped req session).store.sessions id = l.store.sessions id :=
  Function.update_of_ne h ..

@[simp] theorem stops_stopped_self (l : Ledger) (req : StopRequest) (session : Session) :
    (l.stopped req session).stops req.sessionId = l.stops req.sessionId ++ [req.timestamp] :=
  Function.update_self ..

theorem stops_stopped_of_ne (l : Ledger) (req : StopRequest) (session : Session) {id : String}
    (h : id ≠ req.sessionId) : (l.stopped req session).stops id = l.stops id :=
  Function.update_of_ne h ..

/-! ### The invariant of all histories -/

/-- What is put down for an id agrees with the session of that id: an active session has no stop,
and a stopped one is as its last stop has left it. -/
inductive Recorded (stops : List Int64) : Option Session → Prop
  | unknown (hstops : stops = []) : Recorded stops none
  | active {session : Session} (hrate : session.rate = defaultRate)
      (hstatus : session.status = "active") (hstops : stops = []) : Recorded stops (some session)
  | stopped {session : Session} (hrate : session.rate = defaultRate)
      (hstop : session.stop session.stopTime = session)
      (hlast : stops.getLast? = some session.stopTime) : Recorded stops (some session)

theorem Recorded.rate {stops : List Int64} {session : Session}
    (h : Recorded stops (some session)) : session.rate = defaultRate := by
  cases h with
  | active hrate hstatus hstops => exact hrate
  | stopped hrate hstop hlast => exact hrate

theorem Recorded.of_active {stops : List Int64} {session : Session}
    (h : Recorded stops (some session)) (hactive : session.status = "active") : stops = [] := by
  cases h with
  | active hrate hstatus hstops => exact hstops
  | stopped hrate hstop hlast =>
      have hstatus : session.status = "stopped" := congrArg Session.status hstop.symm
      rw [hactive] at hstatus
      exact absurd hstatus (by decide)

theorem Recorded.of_stopped {stops : List Int64} {session : Session}
    (h : Recorded stops (some session)) (hstopped : session.status = "stopped") :
    session.stop session.stopTime = session ∧ stops.getLast? = some session.stopTime := by
  cases h with
  | active hrate hstatus hstops =>
      rw [hstatus] at hstopped
      exact absurd hstopped (by decide)
  | stopped hrate hstop hlast => exact ⟨hstop, hlast⟩

/-- The invariant of the ledger. -/
structure Coherent (uuids : Uuids) (l : Ledger) : Prop where
  recorded : ∀ id, Recorded (l.stops id) (l.store.sessions id)
  fresh : ∀ {k}, l.store.created ≤ k → l.store.sessions (uuids.gen k) = none

theorem coherent_newLedger (uuids : Uuids) : newLedger.Coherent uuids where
  recorded _ := .unknown rfl
  fresh _ := rfl

theorem Coherent.recorded_of_eq_some (h : l.Coherent uuids) {id : String} {session : Session}
    (hsession : l.store.sessions id = some session) : Recorded (l.stops id) (some session) :=
  hsession ▸ h.recorded id

/-- No stop was accepted under an id that was not given yet. -/
theorem Coherent.stops_fresh (h : l.Coherent uuids) : l.stops (uuids.gen l.store.created) = [] := by
  have hrecorded := h.recorded (uuids.gen l.store.created)
  rw [h.fresh le_rfl] at hrecorded
  cases hrecorded with
  | unknown hstops => exact hstops

theorem Coherent.opened (h : l.Coherent uuids) (req : StartRequest) :
    (l.opened uuids req).Coherent uuids := by
  refine ⟨fun id => ?_, fun {k} hk => ?_⟩
  · by_cases heq : id = uuids.gen l.store.created
    · subst heq
      obtain ⟨new, hnew, hactive, hrate⟩ := exists_sessions_opened uuids l req
      rw [hnew]
      exact .active hrate hactive h.stops_fresh
    · rw [sessions_opened_of_ne uuids l req heq]
      exact h.recorded id
  · have hk' : l.store.created + 1 ≤ k := hk
    have hne : uuids.gen k ≠ uuids.gen l.store.created := fun heq => by
      have := uuids.injective heq
      omega
    rw [sessions_opened_of_ne uuids l req hne]
    exact h.fresh (by omega)

theorem Coherent.stopped (h : l.Coherent uuids) {req : StopRequest} {session : Session}
    (hsession : l.store.sessions req.sessionId = some session) :
    (l.stopped req session).Coherent uuids := by
  refine ⟨fun id => ?_, fun {k} hk => ?_⟩
  · by_cases heq : id = req.sessionId
    · subst heq
      rw [sessions_stopped_self]
      exact .stopped (h.recorded_of_eq_some hsession).rate rfl (by simp [Session.stop])
    · rw [sessions_stopped_of_ne l req session heq, stops_stopped_of_ne l req session heq]
      exact h.recorded id
  · have hfresh := h.fresh hk
    have hne : uuids.gen k ≠ req.sessionId := fun heq => by
      rw [heq, hsession] at hfresh
      cases hfresh
    rwa [sessions_stopped_of_ne l req session hne]

theorem Coherent.serve (h : l.Coherent uuids) (r : Request) : (l.serve uuids r).Coherent uuids := by
  rcases serve_cases uuids l r with heq | ⟨req, -, heq⟩ | ⟨req, session, -, hsession, heq⟩
  · rwa [heq]
  · rw [heq]
    exact h.opened req
  · rw [heq]
    exact h.stopped hsession

/-! ### Steady requests -/

/-- All the stops that were accepted for a session bear the time at which it was stopped, and it is
not before the start. -/
def Steadied (l : Ledger) : Prop :=
  ∀ id session, l.store.sessions id = some session → ∀ timestamp ∈ l.stops id,
    timestamp = session.stopTime ∧ session.startTime ≤ timestamp

theorem Steadied.serve {r : Request} (h : l.Steadied) (hl : l.Coherent uuids) (hr : l.Steady r) :
    (l.serve uuids r).Steadied := by
  rcases serve_cases uuids l r with heq | ⟨req, -, heq⟩ | ⟨req, session, rfl, hsession, heq⟩
  · rwa [heq]
  · rw [heq]
    intro id other hid timestamp hmem
    by_cases hnew : id = uuids.gen l.store.created
    · rw [stops_opened, hnew, hl.stops_fresh] at hmem
      cases hmem
    · rw [sessions_opened_of_ne uuids l req hnew] at hid
      exact h id other hid timestamp hmem
  · rw [heq]
    obtain ⟨hactive, hstopped⟩ := hr session hsession
    -- a stop that is repeated bears the time of the stops before it
    have hall : session.startTime ≤ req.timestamp ∧
        ∀ timestamp ∈ l.stops req.sessionId, timestamp = req.timestamp := by
      cases hl.recorded_of_eq_some hsession with
      | active hrate hstatus hstops => simpa [hstops] using hactive hstatus
      | stopped hrate hstop hlast =>
          have hstatus : session.status = "stopped" := congrArg Session.status hstop.symm
          have hstart := (h _ _ hsession _ (List.mem_of_getLast? hlast)).2
          rw [hstopped hstatus]
          exact ⟨hstart, fun timestamp hmem => (h _ _ hsession timestamp hmem).1⟩
    obtain ⟨hstart, hsame⟩ := hall
    intro id other hid timestamp hmem
    by_cases hself : id = req.sessionId
    · subst hself
      rw [sessions_stopped_self] at hid
      cases hid
      rw [stops_stopped_self, List.mem_append, List.mem_singleton] at hmem
      rcases hmem with hmem | rfl
      · exact ⟨hsame timestamp hmem, hsame timestamp hmem ▸ hstart⟩
      · exact ⟨rfl, hstart⟩
    · rw [sessions_stopped_of_ne l req session hself] at hid
      rw [stops_stopped_of_ne l req session hself] at hmem
      exact h id other hid timestamp hmem

/-- The bill of a stop is right exactly if the stop is not before the start. -/
theorem billedTo_stop_iff {session : Session} {timestamp : Int64}
    (hrate : session.rate = defaultRate) :
    (session.stop timestamp).BilledTo timestamp ↔ session.startTime ≤ timestamp := by
  rw [← Int64.toNat_toUInt64_sub_eq_max_iff]
  constructor
  · exact fun h => h.duration
  · intro h
    refine ⟨h, ?_⟩
    have hstoprate : (session.stop timestamp).rate = defaultRate := hrate
    rw [hstoprate]
    exact (mul_div_assoc _ _ _).symm

theorem Steadied.billed (h : l.Steadied) (hl : l.Coherent uuids) : l.Billed := by
  intro id session hsession hstatus
  have hrecorded := hl.recorded_of_eq_some hsession
  obtain ⟨hstop, hlast⟩ := hrecorded.of_stopped hstatus
  obtain ⟨first, hfirst⟩ : ∃ first, (l.stops id).head? = some first := by
    cases hstops : l.stops id with
    | nil => rw [hstops] at hlast; cases hlast
    | cons first rest => exact ⟨first, rfl⟩
  obtain ⟨rfl, hstart⟩ := h id session hsession first (List.mem_of_head? hfirst)
  refine ⟨_, hfirst, ?_⟩
  rw [← hstop]
  exact (billedTo_stop_iff hrecorded.rate).2 hstart

theorem billsKept_of_steady {r : Request} (hl : l.Coherent uuids) (hr : l.Steady r) :
    l.BillsKept (l.serve uuids r) := by
  intro id session hsession hstatus
  rcases serve_cases uuids l r with heq | ⟨req, -, heq⟩ | ⟨req, other, rfl, hother, heq⟩
  · exact ⟨session, by rwa [heq], rfl, rfl⟩
  · have hne : id ≠ uuids.gen l.store.created := by
      rintro rfl
      rw [hl.fresh le_rfl] at hsession
      cases hsession
    exact ⟨session, by rwa [heq, sessions_opened_of_ne uuids l req hne], rfl, rfl⟩
  · by_cases hself : id = req.sessionId
    · subst hself
      cases hother.symm.trans hsession
      have hsame := (hr session hsession).2 hstatus
      obtain ⟨hstop, -⟩ := (hl.recorded_of_eq_some hsession).of_stopped hstatus
      refine ⟨session, ?_, rfl, rfl⟩
      rw [heq, sessions_stopped_self, hsame, hstop]
    · exact ⟨session, by rwa [heq, sessions_stopped_of_ne l req other hself], rfl, rfl⟩

/-- A request that spoils no bill is a steady one. -/
theorem steady_of_billed {r : Request} (hl : l.Coherent uuids) (hbilled : (l.serve uuids r).Billed)
    (hkept : l.BillsKept (l.serve uuids r)) : l.Steady r := by
  cases r with
  | start body => trivial
  | stop body =>
      cases body with
      | error e => trivial
      | ok req =>
          intro session hsession
          rw [serve_stop_of_known hsession] at hbilled hkept
          have hrecorded := hl.recorded_of_eq_some hsession
          have hafter := sessions_stopped_self l req session
          refine ⟨fun hactive => ?_, fun hstopped => ?_⟩
          · obtain ⟨timestamp, hfirst, hbill⟩ := hbilled _ _ hafter rfl
            rw [stops_stopped_self, hrecorded.of_active hactive] at hfirst
            cases hfirst
            exact (billedTo_stop_iff hrecorded.rate).1 hbill
          · obtain ⟨session', hsession', hduration, -⟩ := hkept _ _ hsession hstopped
            cases hafter.symm.trans hsession'
            rw [← (hrecorded.of_stopped hstopped).1] at hduration
            exact Int64.toUInt64_sub_inj.1 hduration

end Ledger

theorem coherent_ledgerAfter (uuids : Uuids) (rs : List Request) :
    (ledgerAfter uuids rs).Coherent uuids := by
  induction rs using List.reverseRecOn with
  | nil => exact Ledger.coherent_newLedger uuids
  | append_singleton rs r ih =>
      rw [ledgerAfter_concat]
      exact ih.serve r

theorem steadied_ledgerAfter {uuids : Uuids} {rs : List Request}
    (h : ∀ p r, p ++ [r] <+: rs → (ledgerAfter uuids p).Steady r) :
    (ledgerAfter uuids rs).Steadied := by
  induction rs using List.reverseRecOn with
  | nil =>
      intro id session hid
      cases hid
  | append_singleton rs r ih =>
      rw [ledgerAfter_concat]
      refine (ih fun p r' hp => h p r' (hp.trans (List.prefix_append rs [r]))).serve
        (coherent_ledgerAfter uuids rs) (h rs r (List.prefix_refl _))

theorem SoundBilling.steady {uuids : Uuids} {rs : List Request} (h : SoundBilling uuids rs)
    {p : List Request} {r : Request} (hp : p ++ [r] <+: rs) : (ledgerAfter uuids p).Steady r := by
  have hbilled := h.1 _ hp
  have hkept := h.2 p r hp
  rw [ledgerAfter_concat] at hbilled hkept
  exact Ledger.steady_of_billed (coherent_ledgerAfter uuids p) hbilled hkept

/-- Ids that count the sessions. -/
def countedUuids : Uuids where
  gen n := String.ofList (Nat.toDigits 10 n)
  injective := by
    intro m n h
    have hdigits := congrArg (fun s => Nat.ofDigitChars 10 (String.toList s) 0) h
    simpa [Nat.ofDigitChars_toDigits] using hdigits

/-- A session that is stopped fifty seconds before it starts. -/
def backdatedStop : List Request :=
  [.start (.ok ⟨"DEMO-VIN-001", "zone-demo-1", 100⟩), .stop (.ok ⟨"0", 50⟩)]

/-- A session that is stopped after an hour, and again after another one. -/
def repeatedStop : List Request :=
  [.start (.ok ⟨"DEMO-VIN-001", "zone-demo-1", 0⟩), .stop (.ok ⟨"0", 3600⟩),
    .stop (.ok ⟨"0", 7200⟩)]

/-- **Two histories with wrong bills:** the first session is billed for almost `2 ^ 64` seconds, and
the second one for two hours although it was stopped after one. -/
theorem backdated_and_repeated_stops :
    (¬ SoundBilling countedUuids backdatedStop ∧
      ((ledgerAfter countedUuids backdatedStop).store.sessions "0").map Session.duration =
        some 18446744073709551566) ∧
    ¬ SoundBilling countedUuids repeatedStop ∧
      ((ledgerAfter countedUuids repeatedStop).store.sessions "0").map Session.duration =
        some 7200 := by
  refine ⟨⟨fun h => ?_, by decide +kernel⟩, fun h => ?_, by decide +kernel⟩
  · have hsteady := h.steady (p := backdatedStop.take 1) (List.prefix_refl _)
    exact absurd ((hsteady _ rfl).1 rfl) (by decide)
  · have hsteady := h.steady (p := repeatedStop.take 2) (List.prefix_refl _)
    exact absurd ((hsteady _ rfl).2 rfl) (by decide)

/-- **When the bills are right:** every request of the history spoils no bill, that is, an active
session is not stopped at a time before its start, and the stop of a stopped session repeats the
time at which it was stopped. -/
theorem soundBilling_iff (uuids : Uuids) (rs : List Request) :
    SoundBilling uuids rs ↔ ∀ p r, p ++ [r] <+: rs → (ledgerAfter uuids p).Steady r := by
  constructor
  · exact fun h p r hp => h.steady hp
  · intro hsteady
    refine ⟨fun p hp => ?_, fun p r hp => ?_⟩
    · refine Ledger.Steadied.billed (steadied_ledgerAfter fun q r hq => ?_)
        (coherent_ledgerAfter uuids p)
      exact hsteady q r (hq.trans hp)
    · rw [ledgerAfter_concat]
      exact Ledger.billsKept_of_steady (coherent_ledgerAfter uuids p) (hsteady p r hp)

end ParkingOperator
