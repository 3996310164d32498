/-
**A client that knows the adapters.**

The states of the adapters can be listed, and they can be watched; a client that wants to know them
all the time calls `WatchAdapterStates`, then `ListAdapters`, and goes on with the events.  What it
shows for an adapter is the state of the last event that it was sent, or, if there was none, the
state in the list.

This is nearly enough.  Events are sent for transitions only, not when an entry is created or
removed.  But an install call makes a transition of its new entry right after it has created it, so
that a client that does not fall too far behind shows the state of every adapter that the service
knows, whatever is installed, removed and offloaded while it watches and lists.  Only the adapter
whose install call has just created the entry, and has not yet made that transition, may be shown as
what it was before.

Main definitions:

* `UpdateService.AdapterInfo`, `UpdateService.grpcListAdapters`,
  `UpdateService.grpcGetAdapterStatus` — the two calls that read the map;
* `UpdateService.Told` — the events tell of every entry that is not `UNKNOWN`;
* `UpdateService.Client`, `UpdateService.Viewed` — a client next to the service.

Main results:

* `UpdateService.Threads.Inv.told` — what a step of the service changes is told of;
* `UpdateService.Viewed.Inv.step` — every step keeps the invariant;
* `UpdateService.view_current` — the client shows the states of the adapters.
-/

import ParkingFeeService.UpdateSettled
import ParkingFeeService.UpdateThreads
import ParkingFeeService.UpdateWatch

set_option relaxedAutoImplicit false
set_option autoImplicit false

namespace UpdateService

open Broadcast (Ring Walk)

/-! ### The calls that read the map -/

/-- The message `AdapterInfo`. -/
structure AdapterInfo where
  adapterId : String
  imageRef : String
  state : ℤ
  deriving DecidableEq

/-- An entry as a message. -/
def AdapterEntry.info (e : AdapterEntry) : AdapterInfo :=
  ⟨e.adapterId, e.imageRef, stateToProto e.state⟩

@[simp] theorem AdapterEntry.info_adapterId (e : AdapterEntry) :
    e.info.adapterId = e.adapterId := rfl

/-- The status with which a call that reads the map fails. -/
inductive Status
  | notFound (msg : String)
  deriving DecidableEq

/-- The response to `ListAdapters`, in the order of the map. -/
def grpcListAdapters (sm : StateManager) : List AdapterInfo := sm.listAdapters.map AdapterEntry.info

/-- The response to `GetAdapterStatus`. -/
def grpcGetAdapterStatus (sm : StateManager) (id : String) : Except Status AdapterInfo :=
  match sm.getAdapter id with
  | none => .error (.notFound "adapter not found")
  | some e => .ok e.info

/-- The state that a list gives for an adapter. -/
def listedState (infos : List AdapterInfo) (id : String) : Option ℤ :=
  (infos.find? fun info => info.adapterId = id).map AdapterInfo.state

/-- The list gives every adapter its state, whatever its order. -/
theorem listedState_of_perm {sm : StateManager} {infos : List AdapterInfo}
    (h : infos.Perm (grpcListAdapters sm)) (id : String) :
    listedState infos id = (sm.stateAt id).map stateToProto := by
  have hmem : ∀ info, info ∈ infos ↔ ∃ e, sm.getAdapter e.adapterId = some e ∧ e.info = info := by
    intro info
    rw [h.mem_iff, grpcListAdapters, List.mem_map]
    simp only [StateManager.mem_listAdapters]
  cases hfind : infos.find? fun info => info.adapterId = id with
  | none =>
      have hnone : sm.getAdapter id = none := by
        cases he : sm.getAdapter id with
        | none => rfl
        | some e =>
            have hid := StateManager.adapterId_of_getAdapter he
            have hlisted := (hmem e.info).2 ⟨e, hid ▸ he, rfl⟩
            exact absurd (decide_eq_true hid) (List.find?_eq_none.1 hfind _ hlisted)
      rw [listedState, hfind, StateManager.stateAt, hnone]
      rfl
  | some info =>
      obtain ⟨e, he, rfl⟩ := (hmem info).1 (List.mem_of_find?_eq_some hfind)
      have hfound := List.find?_some hfind
      have hid : e.adapterId = id := of_decide_eq_true hfound
      rw [listedState, hfind, StateManager.stateAt, ← hid, he]
      rfl

/-! ### Every entry is told of -/

/-- The state that the last event of an adapter has entered. -/
def lastState (id : String) (evs : List AdapterStateEvent) : Option AdapterState :=
  (eventsFor id evs).getLast?.map AdapterStateEvent.newState

@[simp] theorem lastState_nil (id : String) : lastState id [] = none := rfl

theorem lastState_concat_self (evs : List AdapterStateEvent) (id : String)
    (old st : AdapterState) (time : ℕ) :
    lastState id (evs ++ [⟨id, old, st, time⟩]) = some st := by
  simp [lastState, eventsFor]

theorem lastState_append_of_ne {id : String} (evs : List AdapterStateEvent)
    {more : List AdapterStateEvent} (h : ∀ ev ∈ more, ev.adapterId ≠ id) :
    lastState id (evs ++ more) = lastState id evs := by
  have hnone : eventsFor id more = [] :=
    List.filter_eq_nil_iff.2 fun ev hev hid => h ev hev (of_decide_eq_true hid)
  rw [lastState, eventsFor_append, hnone, List.append_nil, lastState]

/-- Every known adapter that is not `UNKNOWN` is in the state that its last event has entered, or it
has none and what is known of it without is right. -/
def Told (base : String → AdapterState → Prop) (evs : List AdapterStateEvent) (sm : StateManager) :
    Prop :=
  ∀ id st, sm.stateAt id = some st → st ≠ .unknown →
    lastState id evs = some st ∨ lastState id evs = none ∧ base id st

section Told

variable {base : String → AdapterState → Prop} {evs : List AdapterStateEvent} {sm : StateManager}

/-- A transition is told of by its event. -/
theorem Told.transition (h : Told base evs sm) (clk : Clock) (id : String) (st : AdapterState)
    (msg : Option String) :
    Told base (evs ++ (Write.transition id st msg).events clk sm)
      ((Write.transition id st msg).apply clk sm) := by
  intro id' st' hst' hknown
  rw [stateAt_transition] at hst'
  by_cases hid : id' = id
  · subst hid
    rw [if_pos rfl, Option.map_eq_some_iff] at hst'
    obtain ⟨old, hold, rfl⟩ := hst'
    refine .inl ?_
    rw [Write.events, hold]
    exact lastState_concat_self evs id' old st clk.unixSecs
  · rw [if_neg hid] at hst'
    rw [lastState_append_of_ne evs fun ev hev heq => hid ?_]
    · exact h id' st' hst' hknown
    · exact heq.symm.trans (adapterId_of_mem_events hev)

theorem Told.remove (h : Told base evs sm) (clk : Clock) (id : String) :
    Told base evs ((Write.remove id).apply clk sm) := by
  intro id' st' hst' hknown
  rw [stateAt_remove] at hst'
  split at hst'
  · cases hst'
  · exact h id' st' hst' hknown

/-- No event tells of a new entry, but it is `UNKNOWN`. -/
theorem Told.create (h : Told base evs sm) (clk : Clock) (job : InstallJob) :
    Told base evs ((Write.create job.entry).apply clk sm) := by
  intro id' st' hst' hknown
  rw [stateAt_create] at hst'
  split at hst'
  · cases hst'
    exact absurd rfl hknown
  · exact h id' st' hst' hknown

/-- A write is told of by its events. -/
theorem Told.write (h : Told base evs sm) (clk : Clock) {w : Write} {rest : List Write}
    (hann : Announced (w :: rest)) : Told base (evs ++ w.events clk sm) (w.apply clk sm) := by
  cases hann with
  | transition id msg hst _ => exact h.transition clk id _ msg
  | remove id _ => simpa [Write.events] using h.remove clk id
  | create job _ => simpa [Write.events] using h.create clk job

end Told

variable {P : Podman}

/-- **What a step of the service changes is told of** by the events that it sends. -/
theorem Threads.Inv.told {s s' : Threads P} (h : s.Inv) {timeout : ℕ} {l : ThreadLabel P}
    (hstep : s.step timeout l = some s') :
    ∃ more, s'.world.sm.sent = s.world.sm.sent ++ more ∧
      ∀ {base evs}, Told base evs s.world.sm → Told base (evs ++ more) s'.world.sm := by
  rcases h.sm_step hstep with hsm | ⟨w, rest, hann, hsm⟩ <;> rw [hsm]
  · exact ⟨[], by simp, fun h => by simpa using h⟩
  · exact ⟨_, sent_apply _ _ _, fun h => h.write _ hann⟩

/-! ### The client -/

/-- A client that watches, and the list once it has it. -/
structure Client where
  watcher : Watcher
  listed : Option (List AdapterInfo)

/-- What the client shows for an adapter: the state of the last event that it was sent, or that in
the list. -/
def Client.shows (c : Client) (id : String) : Option ℤ :=
  match (c.watcher.stream.filter fun ev => ev.adapterId = id).getLast? with
  | some ev => some ev.newState
  | none => c.listed.bind fun infos => listedState infos id

/-- The service, its broadcast channel and a client. -/
structure Viewed (P : Podman) where
  service : Threads P
  ring : Ring channelCapacity AdapterStateEvent
  client : Option Client

/-- A service that has just started. -/
def Viewed.init (P : Podman) (clk : Clock) : Viewed P := ⟨.init P clk, .new, none⟩

/-- The labels: a step of the service, and what the client does. -/
inductive ViewLabel (P : Podman)
  | service (l : ThreadLabel P)
  /-- the client calls `WatchAdapterStates` -/
  | watch
  /-- the client calls `ListAdapters`, with the list in the order in which the map yields it -/
  | list (infos : List AdapterInfo)
  /-- the stream of the client is read -/
  | poll

/-- The service after a step, whose events go into the channel. -/
def Viewed.settle (v : Viewed P) (s : Threads P) : Viewed P :=
  { v with
    service := s
    ring := (s.world.sm.sent.drop v.service.world.sm.sent.length).foldl Ring.send v.ring }

/-- One step. -/
def Viewed.step (timeout : ℕ) (v : Viewed P) : ViewLabel P → Option (Viewed P)
  | .service l => (v.service.step timeout l).map v.settle
  | .watch =>
      match v.client with
      | none => some
          { v with client := some ⟨⟨v.service.world.sm.sent.length, v.ring.tail, []⟩, none⟩ }
      | some _ => none
  | .list infos =>
      match v.client with
      | some ⟨watcher, none⟩ =>
          if infos.Perm (grpcListAdapters v.service.world.sm) then
            some { v with client := some ⟨watcher, some infos⟩ }
          else none
      | _ => none
  | .poll => v.client.map fun c =>
      { v with client := some { c with watcher := c.watcher.poll v.ring } }

/-- The step leaves the client no more events behind than the channel keeps. -/
def KeepsUp (timeout : ℕ) (v : Viewed P) : ViewLabel P → Prop
  | .service l => ∀ c ∈ v.client, ∀ s ∈ v.service.step timeout l,
      s.world.sm.sent.length ≤ c.watcher.next + channelCapacity
  | .watch | .list _ | .poll => True

instance (timeout : ℕ) (v : Viewed P) : (l : ViewLabel P) → Decidable (KeepsUp timeout v l)
  | .service l => inferInstanceAs (Decidable (∀ c ∈ v.client, ∀ s ∈ v.service.step timeout l,
      s.world.sm.sent.length ≤ c.watcher.next + channelCapacity))
  | .watch | .list _ | .poll => isTrue trivial

/-! ### The invariant -/

/-- What the client knows of an adapter that it has been sent no event of. -/
def Client.base (c : Client) (id : String) (st : AdapterState) : Prop :=
  ∀ infos ∈ c.listed, listedState infos id = some (stateToProto st)

/-- The client has been sent the events from its call on without a gap, and what was emitted since
then and the list tell of every adapter. -/
structure Client.Follows (sm : StateManager) (c : Client) : Prop where
  start : c.watcher.start ≤ sm.sent.length
  walk : Walk channelCapacity sm.sent c.watcher.start c.watcher.items c.watcher.next
  complete : ∀ n, (.error n : Except ℕ AdapterStateEvent) ∉ c.watcher.items
  near : sm.sent.length ≤ c.watcher.next + channelCapacity
  told : Told c.base (sm.sent.drop c.watcher.start) sm

/-- The channel keeps the last events, and the client follows them. -/
structure Viewed.Inv (v : Viewed P) : Prop where
  service : v.service.Inv
  keeps : v.ring.Keeps v.service.world.sm.sent
  client : ∀ c, v.client = some c → c.Follows v.service.world.sm

theorem viewed_inv_init (clk : Clock) : (Viewed.init P clk).Inv :=
  ⟨threads_inv_init clk, Ring.keeps_new, fun c hc => by cases hc⟩

section Inv

variable {v : Viewed P} {timeout : ℕ}

/-- The service takes a step. -/
theorem Viewed.Inv.service_step (h : v.Inv) {l : ThreadLabel P} {s : Threads P}
    (hstep : v.service.step timeout l = some s) (hguard : KeepsUp timeout v (.service l)) :
    (v.settle s).Inv := by
  obtain ⟨more, hsent, htold⟩ := h.service.told hstep
  refine ⟨h.service.step hstep, ?_, fun c hc => ⟨?_, ?_, ?_, hguard c hc s hstep, ?_⟩⟩
  · rw [Viewed.settle, hsent, List.drop_left]
    exact h.keeps.foldl_send
  · rw [Viewed.settle, hsent, List.length_append]
    exact Nat.le_add_right_of_le (h.client c hc).start
  · rw [Viewed.settle, hsent]
    exact (h.client c hc).walk.append more
  · exact (h.client c hc).complete
  · rw [Viewed.settle, hsent, List.drop_append_of_le_length (h.client c hc).start]
    exact htold (h.client c hc).told

/-- A client begins to watch. -/
theorem Viewed.Inv.follows_watch (h : v.Inv) :
    Client.Follows v.service.world.sm
      ⟨⟨v.service.world.sm.sent.length, v.ring.tail, []⟩, none⟩ := by
  refine ⟨le_rfl, h.keeps.tail_eq.symm, by simp, ?_, fun id st _ _ => .inr ⟨by simp, ?_⟩⟩
  · simp only [h.keeps.tail_eq]
    omega
  · intro infos hinfos
    cases hinfos

/-- The client gets the list: it gives the adapters that have made no transition since. -/
theorem Client.Follows.list {sm : StateManager} {watcher : Watcher}
    (h : Client.Follows sm ⟨watcher, none⟩) {infos : List AdapterInfo}
    (hperm : infos.Perm (grpcListAdapters sm)) : Client.Follows sm ⟨watcher, some infos⟩ := by
  refine ⟨h.start, h.walk, h.complete, h.near, fun id st hst hknown => ?_⟩
  rcases h.told id st hst hknown with hlast | ⟨hnone, -⟩
  · exact .inl hlast
  · refine .inr ⟨hnone, fun infos' hinfos => ?_⟩
    cases hinfos
    rw [listedState_of_perm hperm, hst]
    rfl

/-- The stream is read: the channel has dropped nothing that the client has not read yet. -/
theorem Client.Follows.poll {sm : StateManager} {c : Client} (h : c.Follows sm)
    {ring : Ring channelCapacity AdapterStateEvent} (hring : ring.Keeps sm.sent) :
    Client.Follows sm { c with watcher := c.watcher.poll ring } := by
  rw [Watcher.poll]
  split
  · next item hitem =>
      have hnear := h.near
      refine ⟨h.start, h.walk.recv hring hitem, fun n hn => ?_, ?_, h.told⟩
      · rcases List.mem_append.1 hn with hn | hn
        · exact h.complete n hn
        · rw [← List.mem_singleton.1 hn] at hitem
          obtain ⟨hpos, hgone⟩ := hring.recv_error hitem
          omega
      · simp only
        omega
  · exact ⟨h.start, h.walk, h.complete, h.near, h.told⟩

/-- **Every step that lets the client keep up keeps the invariant.** -/
theorem Viewed.Inv.step {v' : Viewed P} {l : ViewLabel P} (h : v.Inv)
    (hguard : KeepsUp timeout v l) (hstep : v.step timeout l = some v') : v'.Inv := by
  cases l with
  | service l =>
      obtain ⟨s, hs, rfl⟩ := Option.map_eq_some_iff.1 hstep
      exact h.service_step hs hguard
  | watch =>
      rw [Viewed.step] at hstep
      split at hstep
      · cases hstep
        refine ⟨h.service, h.keeps, fun c hc => ?_⟩
        cases hc
        exact h.follows_watch
      · cases hstep
  | list infos =>
      rw [Viewed.step] at hstep
      split at hstep
      · next watcher hc =>
          obtain ⟨hperm, hstep⟩ := Option.ite_none_right_eq_some.1 hstep
          cases hstep
          refine ⟨h.service, h.keeps, fun c hc' => ?_⟩
          cases hc'
          exact (h.client _ hc).list hperm
      · cases hstep
  | poll =>
      obtain ⟨c, hc, rfl⟩ := Option.map_eq_some_iff.1 hstep
      refine ⟨h.service, h.keeps, fun c' hc' => ?_⟩
      cases hc'
      exact (h.client c hc).poll h.keeps

end Inv

/-! ### What the client shows -/

/-- A client that has taken everything has been sent all events since its call. -/
theorem Client.Follows.stream_eq {sm : StateManager} {c : Client} (h : c.Follows sm)
    {ring : Ring channelCapacity AdapterStateEvent} (hring : ring.Keeps sm.sent)
    (hup : ring.recv c.watcher.next = none) :
    c.watcher.stream = (sm.sent.drop c.watcher.start).map toProto := by
  have hnext : c.watcher.next = sm.sent.length :=
    Nat.le_antisymm (h.walk.le h.start) (hring.recv_none hup)
  rw [UpdateService.stream_eq, h.walk.eq_of_forall_ok h.complete hnext]

/-- What is shown for an adapter, from the events emitted. -/
theorem Client.shows_eq {c : Client} {evs : List AdapterStateEvent}
    (h : c.watcher.stream = evs.map toProto) (id : String) :
    c.shows id =
      match lastState id evs with
      | some st => some (stateToProto st)
      | none => c.listed.bind fun infos => listedState infos id := by
  have hfilter : (evs.map toProto).filter (fun ev => ev.adapterId = id) =
      (eventsFor id evs).map toProto := by
    rw [List.filter_map]
    rfl
  rw [Client.shows, h, hfilter, List.getLast?_map, lastState]
  cases (eventsFor id evs).getLast? <;> rfl

/-- **The client shows the state of every adapter.**  In every run in which it is never left more
than 256 events behind, once it has the list and has taken everything from its stream, it shows for
an adapter what `GetAdapterStatus` answers, or the answer is `UNKNOWN` and an install call has just
created the entry. -/
theorem view_current {timeout : ℕ} {clk : Clock} {v : Viewed P}
    (h : Lts.Reach (Lts.restrict (Viewed.step timeout) (KeepsUp timeout)) (Viewed.init P clk) v)
    {c : Client} (hc : v.client = some c) (hlisted : c.listed.isSome = true)
    (hup : v.ring.recv c.watcher.next = none) {id : String} {info : AdapterInfo}
    (hinfo : grpcGetAdapterStatus v.service.world.sm id = .ok info) :
    c.shows id = some info.state ∨
      info.state = stateToProto .unknown ∧ v.service.Creating id := by
  have hinv : v.Inv := h.invariant (viewed_inv_init clk) fun s a s' hs hstep => by
    obtain ⟨hguard, hstep⟩ := Lts.restrict_eq_some_iff.1 hstep
    exact hs.step hguard hstep
  have hfollows := hinv.client c hc
  obtain ⟨infos, hinfos⟩ := Option.isSome_iff_exists.1 hlisted
  obtain ⟨e, he, rfl⟩ : ∃ e, v.service.world.sm.getAdapter id = some e ∧ e.info = info := by
    rw [grpcGetAdapterStatus] at hinfo
    split at hinfo
    · cases hinfo
    · next e he => exact ⟨e, he, Except.ok.inj hinfo⟩
  have hstate := StateManager.stateAt_of_getAdapter he
  by_cases hknown : e.state = .unknown
  · exact .inr ⟨congrArg stateToProto hknown, hinv.service.creating id (hknown ▸ hstate)⟩
  · rw [Client.shows_eq (hfollows.stream_eq hinv.keeps hup)]
    rcases hfollows.told id e.state hstate hknown with hlast | ⟨hnone, hbase⟩
    · rw [hlast]
      exact .inl rfl
    · rw [hnone, hinfos]
      exact .inl (hbase infos hinfos)

/-- An adapter is installed while a client begins to watch; the list comes between the creation of
the entry and the first transition. -/
def watchedInstall : List (ViewLabel Podman.free) :=
  [.watch, .service (.begin (.install jobA none)), .service (.write 0),
    .list [⟨"a-1", "registry/a:1", 0⟩], .service (.write 0), .service (.finish 0),
    .service (.begin (.exec 0 .done)), .service (.finish 0),
    .service (.begin (.resume 0)), .service (.finish 0),
    .service (.begin (.exec 0 (.digest "sum-a"))), .service (.finish 0),
    .service (.begin (.resume 0)), .service (.write 0), .service (.finish 0), .poll, .poll]

/-- The client shows that the adapter is being installed. -/
theorem view_current_watchedInstall :
    ∃ v c, Lts.run (Lts.restrict (Viewed.step 0) (KeepsUp 0)) (Viewed.init Podman.free ⟨0, 0⟩)
        watchedInstall = some v ∧ v.client = some c ∧ c.shows "a-1" = some 2 := by
  have hrun : (Lts.run (Lts.restrict (Viewed.step 0) (KeepsUp 0))
      (Viewed.init Podman.free ⟨0, 0⟩) watchedInstall).map (fun v =>
        v.client.map fun c => decide (c.listed.isSome = true ∧ c.watcher.items.length = 2 ∧
          (v.ring.recv c.watcher.next).isNone = true ∧
            (v.service.world.sm.getAdapter "a-1").map AdapterEntry.info =
              some ⟨"a-1", "registry/a:1", 2⟩)) = some (some true) := by
    decide +kernel
  obtain ⟨v, hv, hdec⟩ := Option.map_eq_some_iff.1 hrun
  obtain ⟨c, hc, hdec⟩ := Option.map_eq_some_iff.1 hdec
  obtain ⟨hlisted, -, hup, hinfo⟩ := of_decide_eq_true hdec
  have hstatus : grpcGetAdapterStatus v.service.world.sm "a-1" =
      .ok ⟨"a-1", "registry/a:1", 2⟩ := by
    obtain ⟨e, he, heq⟩ := Option.map_eq_some_iff.1 hinfo
    rw [grpcGetAdapterStatus, he]
    exact congrArg Except.ok heq
  have hshows := view_current (Lts.reach_of_run hv) hc hlisted
    (Option.isNone_iff_eq_none.1 hup) hstatus
  exact ⟨v, c, hv, hc, hshows.resolve_right fun hcreating => by cases hcreating.1⟩

end UpdateService
