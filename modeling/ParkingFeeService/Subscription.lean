/-
**Subscriptions to a signal.**

A server keeps the values published to a signal.  A new subscriber is sent the current one, and then
every value published while its stream is up.  A slow stream loses the oldest of the values that
wait on it, never the newest.  On the other side a task takes the values off the stream and forwards
those it can read through a bounded channel to a program, which takes them in order.

So what the program takes is part of what was published, in the same order; and as long as the
stream is up, a program that has taken everything has taken the current value last.

Main definitions:

* `Subscription` — the signal, the stream, the channel, and what was sent and received;
* `Subscription.publish`, `Subscription.take` — the two ends;
* `Subscription.Move`, `Subscription.move` — what happens in between;
* `Subscription.Inv` — the invariant.

Main results:

* `Subscription.Inv.publish`, `Subscription.Inv.take`, `Subscription.Inv.move` — every step keeps
  the invariant;
* `Subscription.Inv.received_sublist` — nothing is invented, repeated or reordered;
* `Subscription.Inv.last_received` — **the newest value arrives.**
-/

import Mathlib.Data.List.Basic
import Mathlib.Tactic.Common

set_option relaxedAutoImplicit false
set_option autoImplicit false

/-- A subscription with the signal it is one to.  `sent` and `received` are histories, and
`subscriptions` counts how often the subscriber has subscribed. -/
structure Subscription (V W : Type*) where
  /-- The values published to the signal, the current one last. -/
  published : List V
  subscriptions : ℕ
  /-- The server still sends on the stream. -/
  connected : Bool
  /-- Values on the stream that the forwarding task has not taken. -/
  wire : List V
  /-- The forwarding task is running. -/
  forwarding : Bool
  /-- The channel from the forwarding task to the program. -/
  inbox : List W
  /-- What the server has sent, on this stream and those before it. -/
  sent : List V
  /-- What the program has taken. -/
  received : List W

namespace Subscription

variable {V W : Type*}

/-! ### The steps -/

/-- A signal that nobody has subscribed to. -/
def start (published : List V) : Subscription V W where
  published := published
  subscriptions := 0
  connected := false
  wire := []
  forwarding := false
  inbox := []
  sent := []
  received := []

/-- A value is published. -/
def publish (s : Subscription V W) (v : V) : Subscription V W :=
  let s := { s with published := s.published ++ [v] }
  if s.connected then { s with wire := s.wire ++ [v], sent := s.sent ++ [v] } else s

/-- The program takes a value. -/
def take (s : Subscription V W) : Option (W × Subscription V W) :=
  match s.inbox with
  | [] => none
  | w :: rest => some (w, { s with inbox := rest, received := s.received ++ [w] })

/-- A new stream, which begins with the current value. -/
def subscribe (s : Subscription V W) : Option (Subscription V W) :=
  if s.inbox = [] ∧ s.forwarding = false then
    some { s with
      subscriptions := s.subscriptions + 1
      connected := true
      wire := s.published.getLast?.toList
      forwarding := true
      sent := s.sent ++ s.published.getLast?.toList }
  else none

/-- The stream loses the oldest of several values. -/
def overrun (s : Subscription V W) : Option (Subscription V W) :=
  match s.wire with
  | _ :: v :: rest => some { s with wire := v :: rest }
  | _ => none

variable (read : V → Option W) (capacity : ℕ)

/-- The forwarding task takes a value off the stream.  One that it cannot read is dropped, any other
waits for a place in the channel. -/
def forward (s : Subscription V W) : Option (Subscription V W) :=
  match s.wire with
  | [] => none
  | v :: rest =>
      if s.forwarding then
        match read v with
        | some w =>
            if s.inbox.length < capacity then
              some { s with wire := rest, inbox := s.inbox ++ [w] }
            else none
        | none => some { s with wire := rest }
      else none

/-- The server stops sending. -/
def disconnect (s : Subscription V W) : Subscription V W := { s with connected := false }

/-- The stream ends, and with it the forwarding task. -/
def endStream (s : Subscription V W) : Subscription V W :=
  { s with connected := false, wire := [], forwarding := false }

/-- What can happen between the two ends. -/
inductive Move
  | subscribe
  | overrun
  | forward
  | disconnect
  | endStream
  deriving DecidableEq, Repr

/-- One step between the two ends. -/
def move (s : Subscription V W) : Move → Option (Subscription V W)
  | .subscribe => s.subscribe
  | .overrun => s.overrun
  | .forward => s.forward read capacity
  | .disconnect => some s.disconnect
  | .endStream => some s.endStream

/-! ### The invariant -/

/-- The value is the last one on its way to the program, or it has arrived if it can be read. -/
def Passing (s : Subscription V W) (v : V) : Prop :=
  s.wire.getLast? = some v ∨
    (s.wire = [] ∧ ∀ w, read v = some w → (s.received ++ s.inbox).getLast? = some w)

/-- What was taken, waits in the channel and is on the stream was sent, in this order; what was sent
on a first stream was published; and while a stream is up, the current value is on its way or has
arrived. -/
structure Inv (s : Subscription V W) : Prop where
  sublist : (s.received ++ (s.inbox ++ s.wire.filterMap read)).Sublist (s.sent.filterMap read)
  before : s.subscriptions = 0 → s.sent = [] ∧ s.connected = false
  once : s.subscriptions ≤ 1 → s.sent.Sublist s.published
  forwarding : s.connected = true → s.forwarding = true
  newest : s.connected = true → ∀ v, s.published.getLast? = some v → s.Passing read v

variable {read capacity} {s s' : Subscription V W}

theorem inv_start (published : List V) : (start published : Subscription V W).Inv read where
  sublist := List.Sublist.refl _
  before _ := ⟨rfl, rfl⟩
  once _ := List.nil_sublist _
  forwarding h := by cases h
  newest h := by cases h

theorem Inv.publish (h : s.Inv read) (v : V) : (s.publish v).Inv read := by
  cases hconn : s.connected with
  | false =>
      simp only [Subscription.publish, hconn, Bool.false_eq_true, if_false]
      refine ⟨h.sublist, fun hzero => ⟨(h.before hzero).1, rfl⟩, fun hone => ?_, ?_, ?_⟩
      · exact (h.once hone).trans (List.sublist_append_left _ _)
      · rintro ⟨⟩
      · rintro ⟨⟩
  | true =>
      simp only [Subscription.publish, hconn, if_true]
      refine ⟨?_, fun hzero => ?_, fun hone => ?_, fun _ => h.forwarding hconn, fun _ v' hv' => ?_⟩
      · rw [List.filterMap_append, List.filterMap_append, ← List.append_assoc, ← List.append_assoc,
          List.append_assoc s.received]
        exact h.sublist.append_right _
      · have hdown := (h.before hzero).2
        rw [hconn] at hdown
        cases hdown
      · exact (h.once hone).append_right _
      · -- the value that is published is the last one on the stream
        rw [List.getLast?_concat] at hv'
        cases hv'
        exact .inl (List.getLast?_concat ..)

theorem take_eq_some_iff {w : W} :
    s.take = some (w, s') ↔
      ∃ rest, s.inbox = w :: rest ∧
        s' = { s with inbox := rest, received := s.received ++ [w] } := by
  rw [take]
  split
  · next hnil => simp [hnil]
  · next w' rest hcons =>
      simp only [hcons, Option.some.injEq, Prod.mk.injEq, List.cons.injEq]
      constructor
      · rintro ⟨rfl, rfl⟩
        exact ⟨rest, ⟨rfl, rfl⟩, rfl⟩
      · rintro ⟨rest', ⟨rfl, rfl⟩, rfl⟩
        exact ⟨rfl, rfl⟩

theorem Inv.take {w : W} (h : s.Inv read) (hs : s.take = some (w, s')) : s'.Inv read := by
  obtain ⟨rest, hrest, rfl⟩ := take_eq_some_iff.1 hs
  obtain ⟨hsublist, hbefore, honce, hforwarding, hnewest⟩ := h
  refine ⟨?_, hbefore, honce, hforwarding, fun hup v hv => ?_⟩
  · simpa [hrest] using hsublist
  · -- a value moves from the channel to the program, and the two together stay as they are
    rcases hnewest hup v hv with hlast | ⟨hnil, harrived⟩
    · exact .inl hlast
    · exact .inr ⟨hnil, by simpa [hrest] using harrived⟩

theorem Inv.subscribe (h : s.Inv read) (hs : s.subscribe = some s') : s'.Inv read := by
  unfold Subscription.subscribe at hs
  split at hs
  · next hclosed =>
      cases hs
      obtain ⟨hsublist, hbefore, honce, -, -⟩ := h
      have hold : s.received.Sublist (s.sent.filterMap read) :=
        (List.sublist_append_left _ _).trans hsublist
      refine ⟨?_, fun hzero => ?_, fun hone => ?_, fun _ => rfl, fun _ v hv => ?_⟩
      · rw [hclosed.1, List.filterMap_append]
        exact hold.append (List.Sublist.refl _)
      · cases hzero
      · -- on the first subscription nothing was sent before
        have hzero : s.subscriptions = 0 := Nat.le_zero.1 (Nat.le_of_succ_le_succ hone)
        rw [(hbefore hzero).1, List.nil_append]
        cases hlast : s.published.getLast? with
        | none => exact List.nil_sublist _
        | some v => exact List.singleton_sublist.2 (List.mem_of_getLast? hlast)
      · have hwire : s.published.getLast?.toList = [v] := by rw [hv, Option.toList_some]
        exact .inl (by rw [hwire]; rfl)
  · cases hs

theorem Inv.overrun (h : s.Inv read) (hs : s.overrun = some s') : s'.Inv read := by
  unfold Subscription.overrun at hs
  split at hs
  · next v v' rest hwire =>
      cases hs
      obtain ⟨hsublist, hbefore, honce, hforwarding, hnewest⟩ := h
      refine ⟨List.Sublist.trans ?_ hsublist, hbefore, honce, hforwarding, fun hup u hu => ?_⟩
      · rw [hwire]
        exact (List.Sublist.refl _).append ((List.Sublist.refl _).append
          ((List.sublist_cons_self v _).filterMap read))
      · rcases hnewest hup u hu with hlast | ⟨hnil, -⟩
        · rw [hwire, List.getLast?_cons_cons] at hlast
          exact .inl hlast
        · rw [hwire] at hnil
          cases hnil
  · cases hs

theorem Inv.forward (h : s.Inv read) (hs : s.forward read capacity = some s') : s'.Inv read := by
  obtain ⟨hsublist, hbefore, honce, hforwarding, hnewest⟩ := h
  unfold Subscription.forward at hs
  split at hs
  · cases hs
  · next v rest hwire =>
    -- if another value is behind the one that is taken, the last one is still on the stream
    have hstay : ∀ u, s.Passing read u → rest ≠ [] → rest.getLast? = some u := by
      intro u hu hne
      obtain ⟨v', rest', rfl⟩ := List.exists_cons_of_ne_nil hne
      rcases hu with hlast | ⟨hnil, -⟩
      · rwa [hwire, List.getLast?_cons_cons] at hlast
      · rw [hwire] at hnil
        cases hnil
    have hmoved : ∀ u, s.Passing read u → rest = [] → u = v := by
      rintro u (hlast | ⟨hnil, -⟩) rfl
      · rw [hwire] at hlast
        exact (Option.some.inj hlast).symm
      · rw [hwire] at hnil
        cases hnil
    split at hs
    · split at hs
      · next w hread =>
        split at hs
        · cases hs
          refine ⟨?_, hbefore, honce, hforwarding, fun hup u hu => ?_⟩
          · simpa [hwire, hread] using hsublist
          · by_cases hrest : rest = []
            · refine .inr ⟨hrest, fun w' hw' => ?_⟩
              rw [hmoved u (hnewest hup u hu) hrest, hread] at hw'
              cases hw'
              rw [← List.append_assoc, List.getLast?_concat]
            · exact .inl (hstay u (hnewest hup u hu) hrest)
        · cases hs
      · next hread =>
        cases hs
        refine ⟨?_, hbefore, honce, hforwarding, fun hup u hu => ?_⟩
        · simpa [hwire, hread] using hsublist
        · by_cases hrest : rest = []
          · refine .inr ⟨hrest, fun w' hw' => ?_⟩
            rw [hmoved u (hnewest hup u hu) hrest, hread] at hw'
            cases hw'
          · exact .inl (hstay u (hnewest hup u hu) hrest)
    · cases hs

theorem Inv.disconnect (h : s.Inv read) : s.disconnect.Inv read where
  sublist := h.sublist
  before hzero := ⟨(h.before hzero).1, rfl⟩
  once := h.once
  forwarding hup := by cases hup
  newest hup := by cases hup

theorem Inv.endStream (h : s.Inv read) : s.endStream.Inv read where
  sublist := by
    refine List.Sublist.trans ?_ h.sublist
    exact (List.Sublist.refl _).append ((List.Sublist.refl _).append (List.nil_sublist _))
  before hzero := ⟨(h.before hzero).1, rfl⟩
  once := h.once
  forwarding hup := by cases hup
  newest hup := by cases hup

/-- **What happens between the two ends keeps the invariant.** -/
theorem Inv.move {m : Move} (h : s.Inv read) (hs : s.move read capacity m = some s') :
    s'.Inv read := by
  cases m with
  | subscribe => exact h.subscribe hs
  | overrun => exact h.overrun hs
  | forward => exact h.forward hs
  | disconnect =>
      cases hs
      exact h.disconnect
  | endStream =>
      cases hs
      exact h.endStream

/-! ### What a step leaves alone -/

@[simp] theorem published_publish (s : Subscription V W) (v : V) :
    (s.publish v).published = s.published ++ [v] := by
  cases hconn : s.connected <;> simp [Subscription.publish, hconn]

@[simp] theorem received_publish (s : Subscription V W) (v : V) :
    (s.publish v).received = s.received := by
  cases hconn : s.connected <;> simp [Subscription.publish, hconn]

@[simp] theorem subscriptions_publish (s : Subscription V W) (v : V) :
    (s.publish v).subscriptions = s.subscriptions := by
  cases hconn : s.connected <;> simp [Subscription.publish, hconn]

theorem subscribe_frame (h : s.subscribe = some s') :
    s'.published = s.published ∧ s'.received = s.received ∧
      s'.subscriptions = s.subscriptions + 1 := by
  unfold Subscription.subscribe at h
  split at h
  · cases h
    exact ⟨rfl, rfl, rfl⟩
  · cases h

/-- Nothing is published or taken between the two ends, and only a subscription counts as one. -/
theorem move_frame {m : Move} (h : s.move read capacity m = some s') :
    s'.published = s.published ∧ s'.received = s.received ∧
      (m ≠ .subscribe → s'.subscriptions = s.subscriptions) := by
  cases m with
  | subscribe =>
      obtain ⟨hpublished, hreceived, -⟩ := subscribe_frame h
      exact ⟨hpublished, hreceived, fun hne => absurd rfl hne⟩
  | overrun =>
      simp only [Subscription.move, Subscription.overrun] at h
      split at h
      · cases h
        exact ⟨rfl, rfl, fun _ => rfl⟩
      · cases h
  | forward =>
      simp only [Subscription.move, Subscription.forward] at h
      split at h
      · cases h
      · split at h
        · split at h
          · split at h
            · cases h
              exact ⟨rfl, rfl, fun _ => rfl⟩
            · cases h
          · cases h
            exact ⟨rfl, rfl, fun _ => rfl⟩
        · cases h
  | disconnect | endStream =>
      cases h
      exact ⟨rfl, rfl, fun _ => rfl⟩

/-- Several values are published one after the other. -/
def publishAll (s : Subscription V W) (vs : List V) : Subscription V W :=
  vs.foldl Subscription.publish s

@[simp] theorem published_publishAll (s : Subscription V W) (vs : List V) :
    (s.publishAll vs).published = s.published ++ vs := by
  induction vs generalizing s with
  | nil => simp [publishAll]
  | cons v vs ih =>
      have hstep : s.publishAll (v :: vs) = (s.publish v).publishAll vs := rfl
      rw [hstep, ih, published_publish, List.append_assoc, List.singleton_append]

@[simp] theorem received_publishAll (s : Subscription V W) (vs : List V) :
    (s.publishAll vs).received = s.received := by
  induction vs generalizing s with
  | nil => rfl
  | cons v vs ih => exact (ih (s.publish v)).trans (received_publish s v)

@[simp] theorem subscriptions_publishAll (s : Subscription V W) (vs : List V) :
    (s.publishAll vs).subscriptions = s.subscriptions := by
  induction vs generalizing s with
  | nil => rfl
  | cons v vs ih => exact (ih (s.publish v)).trans (subscriptions_publish s v)

theorem Inv.publishAll (h : s.Inv read) (vs : List V) : (s.publishAll vs).Inv read := by
  induction vs generalizing s with
  | nil => exact h
  | cons v vs ih => exact ih (h.publish v)

/-! ### What arrives -/

/-- What the program has taken was sent, in this order. -/
theorem Inv.received_sublist_sent (h : s.Inv read) :
    s.received.Sublist (s.sent.filterMap read) :=
  (List.sublist_append_left _ _).trans h.sublist

/-- **Nothing is invented, repeated or reordered** by a program that has subscribed once. -/
theorem Inv.received_sublist (h : s.Inv read) (hone : s.subscriptions ≤ 1) :
    s.received.Sublist (s.published.filterMap read) :=
  h.received_sublist_sent.trans ((h.once hone).filterMap read)

/-- **The newest value arrives:** a program that has taken everything from a stream that is up has
taken the current value last, if that can be read. -/
theorem Inv.last_received (h : s.Inv read) (hup : s.connected = true) (hwire : s.wire = [])
    (hinbox : s.inbox = []) {v : V} {w : W} (hv : s.published.getLast? = some v)
    (hw : read v = some w) : s.received.getLast? = some w := by
  rcases h.newest hup v hv with hlast | ⟨-, harrived⟩
  · rw [hwire] at hlast
    cases hlast
  · have hlast := harrived w hw
    rwa [hinbox, List.append_nil] at hlast

end Subscription
