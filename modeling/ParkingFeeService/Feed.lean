/-
**Subscriptions to several signals.**

A server keeps values under keys.  A subscription to some of the keys begins with a response that
holds their current values, in any order, and every value published to one of them while the stream
is up makes another response.  A slow stream loses the oldest of the responses that wait on it.  On
the other side a task takes the responses and forwards the entries that it can read through a
bounded channel to a program, which takes them in order.

Whatever is lost, the program takes nothing but what was published.  But a response that is lost may
hold the newest value of a key, if those behind it are about other keys: a program that has taken
everything has the current value of a key as long as this has not happened to the key.

Main definitions:

* `Feed` — the signals, the stream, the channel, and what was handled and received;
* `Feed.latest` — the current value of a key;
* `Feed.Move`, `Feed.move` — what happens between the two ends;
* `Feed.Inv`, `Feed.Current`, `Feed.Keeps` — the invariants, and the steps that keep a value.

Main results:

* `Feed.Inv.move`, `Feed.Current.move` — every step keeps the invariants;
* `Feed.Inv.mem_published` — nothing is invented;
* `Feed.Inv.last_received` — **the newest value of a key arrives.**
-/

import Mathlib.Data.List.Basic
import Mathlib.Data.List.Induction
import Mathlib.Tactic.Common

set_option relaxedAutoImplicit false
set_option autoImplicit false

/-- A subscription with the signals of the server.  `handled` and `received` are histories, and
`subscriptions` counts how often the subscriber has subscribed. -/
structure Feed (K V W : Type*) where
  /-- The values published, each under its key. -/
  published : List (K × V)
  subscriptions : ℕ
  /-- The server still sends on the stream. -/
  connected : Bool
  /-- Responses on the stream that the forwarding task has not taken. -/
  wire : List (List (K × V))
  /-- The rest of the response that the forwarding task has taken. -/
  held : List (K × V)
  /-- The forwarding task is running. -/
  forwarding : Bool
  /-- The channel from the forwarding task to the program. -/
  inbox : List W
  /-- The entries that the forwarding task has forwarded or dropped. -/
  handled : List (K × V)
  /-- What the program has taken. -/
  received : List W

namespace Feed

variable {K V W : Type*}

/-! ### The stream and the channel -/

/-- Signals that nobody has subscribed to. -/
def start (published : List (K × V)) : Feed K V W where
  published := published
  subscriptions := 0
  connected := false
  wire := []
  held := []
  forwarding := false
  inbox := []
  handled := []
  received := []

/-- The program takes a value. -/
def take (s : Feed K V W) : Option (W × Feed K V W) :=
  match s.inbox with
  | [] => none
  | w :: rest => some (w, { s with inbox := rest, received := s.received ++ [w] })

variable (read : K × V → Option W) (capacity : ℕ)

/-- The stream loses the oldest of several responses. -/
def overrun (s : Feed K V W) : Option (Feed K V W) :=
  match s.wire with
  | _ :: r :: rest => some { s with wire := r :: rest }
  | _ => none

/-- The forwarding task takes a response, when it is done with the one before. -/
def fetch (s : Feed K V W) : Option (Feed K V W) :=
  match s.wire with
  | [] => none
  | r :: rest =>
      if s.forwarding = true ∧ s.held = [] then some { s with wire := rest, held := r } else none

/-- The forwarding task handles an entry.  One that it cannot read is dropped, any other waits for a
place in the channel. -/
def forward (s : Feed K V W) : Option (Feed K V W) :=
  match s.held with
  | [] => none
  | e :: rest =>
      match read e with
      | some w =>
          if s.inbox.length < capacity then
            some { s with held := rest, inbox := s.inbox ++ [w], handled := s.handled ++ [e] }
          else none
      | none => some { s with held := rest, handled := s.handled ++ [e] }

/-- The server stops sending. -/
def disconnect (s : Feed K V W) : Feed K V W := { s with connected := false }

/-- The forwarding task finds that the stream has ended. -/
def endStream (s : Feed K V W) : Option (Feed K V W) :=
  if s.held = [] then some { s with connected := false, wire := [], forwarding := false } else none

/-- The entries that were handled and those on their way. -/
def entries (s : Feed K V W) : List (K × V) := s.handled ++ (s.held ++ s.wire.flatten)

/-- What was taken and waits in the channel was read of the entries that were handled, and all
entries were published. -/
structure Inv (s : Feed K V W) : Prop where
  taken : s.received ++ s.inbox = s.handled.filterMap read
  origin : s.entries ⊆ s.published

variable {read capacity} {s s' : Feed K V W}

theorem inv_start (published : List (K × V)) : (start published : Feed K V W).Inv read where
  taken := rfl
  origin := List.nil_subset _

theorem take_eq_some_iff {w : W} :
    s.take = some (w, s') ↔
      ∃ rest, s.inbox = w :: rest ∧
        s' = { s with inbox := rest, received := s.received ++ [w] } := by
  rw [take]
  split
  · next hnil => simp [hnil]
  · next w' rest hcons =>
      simp only [hcons, Option.some.injEq, Prod.mk.injEq, List.cons.injEq]
      constructor
      · rintro ⟨rfl, rfl⟩
        exact ⟨rest, ⟨rfl, rfl⟩, rfl⟩
      · rintro ⟨rest', ⟨rfl, rfl⟩, rfl⟩
        exact ⟨rfl, rfl⟩

theorem Inv.take {w : W} (h : s.Inv read) (hs : s.take = some (w, s')) : s'.Inv read := by
  obtain ⟨rest, hrest, rfl⟩ := take_eq_some_iff.1 hs
  refine ⟨?_, h.origin⟩
  rw [← h.taken, hrest, List.append_assoc, List.singleton_append]

theorem overrun_eq_some_iff :
    s.overrun = some s' ↔
      ∃ r r' rest, s.wire = r :: r' :: rest ∧ s' = { s with wire := r' :: rest } := by
  rw [overrun]
  split
  · next r r' rest hwire =>
      simp only [Option.some.injEq, hwire, List.cons.injEq]
      constructor
      · rintro rfl
        exact ⟨r, r', rest, ⟨rfl, rfl, rfl⟩, rfl⟩
      · rintro ⟨_, _, _, ⟨rfl, rfl, rfl⟩, rfl⟩
        rfl
  · next hshort =>
      simp only [reduceCtorEq, false_iff]
      rintro ⟨r, r', rest, hwire, -⟩
      exact hshort r r' rest hwire

/-- The steps of the forwarding task leave the entries as they are. -/
theorem fetch_frame (hs : s.fetch = some s') :
    s'.entries = s.entries ∧ s'.handled = s.handled ∧ s'.inbox = s.inbox ∧
      s'.published = s.published ∧ s'.received = s.received ∧ s'.connected = s.connected ∧
      s'.subscriptions = s.subscriptions := by
  unfold Feed.fetch at hs
  split at hs
  · cases hs
  · next r rest hwire =>
    obtain ⟨⟨-, hheld⟩, hs⟩ := Option.ite_none_right_eq_some.1 hs
    cases hs
    simp [entries, hwire, hheld]

theorem forward_frame (hs : s.forward read capacity = some s') :
    s'.entries = s.entries ∧ s'.published = s.published ∧ s'.received = s.received ∧
      s'.connected = s.connected ∧ s'.subscriptions = s.subscriptions ∧
      ∃ e, s'.handled = s.handled ++ [e] ∧ s'.inbox = s.inbox ++ (read e).toList := by
  unfold Feed.forward at hs
  split at hs
  · cases hs
  · next e rest hheld =>
    split at hs
    · next w hread =>
      rw [Option.ite_none_right_eq_some] at hs
      cases hs.2
      refine ⟨?_, rfl, rfl, rfl, rfl, e, rfl, ?_⟩
      · simp [entries, hheld]
      · rw [hread, Option.toList_some]
    · next hread =>
      cases hs
      refine ⟨?_, rfl, rfl, rfl, rfl, e, rfl, ?_⟩
      · simp [entries, hheld]
      · rw [hread, Option.toList_none, List.append_nil]

theorem Inv.forward (h : s.Inv read) (hs : s.forward read capacity = some s') : s'.Inv read := by
  obtain ⟨hentries, hpublished, hreceived, -, -, e, hhandled, hinbox⟩ := forward_frame hs
  refine ⟨?_, by rw [hentries, hpublished]; exact h.origin⟩
  rw [hreceived, hinbox, hhandled, List.filterMap_append, ← h.taken, List.append_assoc]
  cases hread : read e <;> simp [hread]

/-- **Nothing is invented:** what the program has taken was read of something published. -/
theorem Inv.mem_published {w : W} (h : s.Inv read) (hw : w ∈ s.received) :
    ∃ e ∈ s.published, read e = some w := by
  have hread : w ∈ s.handled.filterMap read := by
    rw [← h.taken]
    exact List.mem_append_left _ hw
  obtain ⟨e, he, hread⟩ := List.mem_filterMap.1 hread
  exact ⟨e, h.origin (List.mem_append_left _ he), hread⟩

/-! ### Current values -/

variable [DecidableEq K]

/-- The value published last under a key. -/
def latest (k : K) (es : List (K × V)) : Option V :=
  (es.filterMap fun e => if e.1 = k then some e.2 else none).getLast?

@[simp] theorem latest_nil (k : K) : latest k ([] : List (K × V)) = none := rfl

theorem latest_append (k : K) (es es' : List (K × V)) :
    latest k (es ++ es') = (latest k es').or (latest k es) := by
  rw [latest, List.filterMap_append, List.getLast?_append, latest, latest]

theorem latest_singleton (k : K) (e : K × V) :
    latest k [e] = if e.1 = k then some e.2 else none := by
  by_cases h : e.1 = k <;> simp [latest, h]

theorem latest_concat (k : K) (es : List (K × V)) (e : K × V) :
    latest k (es ++ [e]) = if e.1 = k then some e.2 else latest k es := by
  rw [latest_append, latest_singleton]
  by_cases h : e.1 = k <;> simp [h]

/-- Values under one key. -/
theorem latest_map {X : Type*} (k k' : K) (f : X → V) (xs : List X) :
    latest k (xs.map fun x => (k', f x)) = if k' = k then xs.getLast?.map f else none := by
  rw [latest, List.filterMap_map]
  by_cases h : k' = k
  · simp [h, List.getLast?_map]
  · simp [h]

theorem mem_of_latest {k : K} {v : V} {es : List (K × V)} (h : latest k es = some v) :
    (k, v) ∈ es := by
  obtain ⟨e, he, hv⟩ := List.mem_filterMap.1 (List.mem_of_getLast? h)
  rw [Option.ite_none_right_eq_some] at hv
  obtain ⟨rfl, hv⟩ := hv
  cases hv
  exact he

/-- A key that has a value in some of the entries has one in all of them. -/
theorem latest_ne_none_of_subset {k : K} {es es' : List (K × V)} (h : es ⊆ es')
    (hne : latest k es ≠ none) : latest k es' ≠ none := by
  obtain ⟨v, hv⟩ := Option.ne_none_iff_exists'.1 hne
  intro hnone
  rw [latest, List.getLast?_eq_none_iff, List.filterMap_eq_nil_iff] at hnone
  have hentry := hnone _ (h (mem_of_latest hv))
  simp at hentry

/-- The current values of some keys. -/
def currentValues (order : List K) (es : List (K × V)) : List (K × V) :=
  order.filterMap fun k => (latest k es).map fun v => (k, v)

theorem mem_of_mem_currentValues {order : List K} {es : List (K × V)} {e : K × V}
    (h : e ∈ currentValues order es) : e ∈ es := by
  obtain ⟨k, -, hk⟩ := List.mem_filterMap.1 h
  obtain ⟨v, hv, rfl⟩ := Option.map_eq_some_iff.1 hk
  exact mem_of_latest hv

theorem latest_currentValues {k : K} {order : List K} (es : List (K × V)) (hk : k ∈ order) :
    latest k (currentValues order es) = latest k es := by
  induction order using List.reverseRecOn with
  | nil => cases hk
  | append_singleton order k' ih =>
      have hsplit : currentValues (order ++ [k']) es =
          currentValues order es ++ ((latest k' es).map fun v => (k', v)).toList := by
        rw [currentValues, List.filterMap_append, currentValues]
        cases hv : latest k' es <;> simp [hv]
      rw [hsplit, latest_append]
      by_cases hsame : k' = k
      · subst hsame
        cases hv : latest k' es with
        | some v => simp [latest_singleton]
        | none =>
            -- there is no value of the key among the others either
            have hrest : latest k' (currentValues order es) = none := by
              by_contra hne
              exact latest_ne_none_of_subset (fun e he => mem_of_mem_currentValues he) hne hv
            simpa [hv] using hrest
      · have hrest := ih ((List.mem_append.1 hk).resolve_right fun h =>
          hsame (List.mem_singleton.1 h).symm)
        cases hv : latest k' es with
        | some v => simpa [hv, latest_singleton, hsame] using hrest
        | none => simpa [hv] using hrest

/-- What is read of the entries ends, for a key, with what is read of its last value. -/
theorem getLast?_of_latest {X : Type*} {read : K × V → Option W} {field : W → Option X} {k : K}
    {v : V} {w : W} {x : X} {es : List (K × V)} (hv : latest k es = some v)
    (hw : read (k, v) = some w) (hx : field w = some x)
    (hfield : ∀ e w, read e = some w → field w ≠ none → e.1 = k) :
    ((es.filterMap read).filterMap field).getLast? = some x := by
  induction es using List.reverseRecOn with
  | nil => cases hv
  | append_singleton es e ih =>
      rw [latest_concat] at hv
      rw [List.filterMap_append, List.filterMap_append]
      by_cases hkey : e.1 = k
      · rw [if_pos hkey] at hv
        have he : e = (k, v) := Prod.ext hkey (Option.some.inj hv)
        simp [he, hw, hx]
      · rw [if_neg hkey] at hv
        have hnone : ([e].filterMap read).filterMap field = [] := by
          rw [List.filterMap_eq_nil_iff]
          intro w' hw'
          obtain ⟨e', he', hread⟩ := List.mem_filterMap.1 hw'
          rw [List.mem_singleton.1 he'] at hread
          by_contra hne
          exact hkey (hfield e w' hread hne)
        rw [hnone, List.append_nil]
        exact ih hv

/-! ### Publishing and subscribing -/

variable (keys : List K)

/-- A value is published. -/
def publish (s : Feed K V W) (e : K × V) : Feed K V W :=
  { s with
    published := s.published ++ [e]
    wire := if s.connected = true ∧ e.1 ∈ keys then s.wire ++ [[e]] else s.wire }

/-- A new stream, which begins with the current values in some order. -/
def subscribe (s : Feed K V W) (order : List K) : Option (Feed K V W) :=
  if s.inbox = [] ∧ s.forwarding = false ∧ order.Perm keys then
    some { s with
      subscriptions := s.subscriptions + 1
      connected := true
      wire := [currentValues order s.published]
      held := []
      forwarding := true }
  else none

/-- What can happen between the two ends. -/
inductive Move (K : Type*)
  | subscribe (order : List K)
  | overrun
  | fetch
  | forward
  | disconnect
  | endStream
  deriving DecidableEq, Repr

/-- The step is a subscription. -/
def Move.subscribes : Move K → Bool
  | .subscribe _ => true
  | _ => false

variable (read capacity) in
/-- One step between the two ends. -/
def move (s : Feed K V W) : Move K → Option (Feed K V W)
  | .subscribe order => s.subscribe keys order
  | .overrun => s.overrun
  | .fetch => s.fetch
  | .forward => s.forward read capacity
  | .disconnect => some s.disconnect
  | .endStream => s.endStream

/-- While a stream is up, the last entry of a key has its current value. -/
def Current (k : K) (s : Feed K V W) : Prop :=
  s.connected = true → latest k s.entries = latest k s.published

/-- The step does not lose the last entry of the key on the stream. -/
def Keeps (k : K) (s : Feed K V W) : Move K → Prop
  | .overrun => latest k s.wire.tail.flatten = none → latest k (s.wire.head?.getD []) = none
  | _ => True

instance (k : K) (s : Feed K V W) : ∀ m : Move K, Decidable (s.Keeps k m)
  | .overrun =>
      inferInstanceAs
        (Decidable (latest k s.wire.tail.flatten = none → latest k (s.wire.head?.getD []) = none))
  | .subscribe _ | .fetch | .forward | .disconnect | .endStream => .isTrue trivial

variable {keys} {k : K}

theorem current_start (k : K) (published : List (K × V)) :
    (start published : Feed K V W).Current k := by
  rintro ⟨⟩

/-- What publishing does to the entries. -/
theorem entries_publish (s : Feed K V W) (e : K × V) :
    (s.publish keys e).entries =
      s.entries ++ if s.connected = true ∧ e.1 ∈ keys then [e] else [] := by
  by_cases h : s.connected = true ∧ e.1 ∈ keys
  · simp [publish, entries, h, List.append_assoc]
  · simp only [publish, h, if_false, List.append_nil]
    rfl

@[simp] theorem published_publish (s : Feed K V W) (e : K × V) :
    (s.publish keys e).published = s.published ++ [e] := rfl

@[simp] theorem received_publish (s : Feed K V W) (e : K × V) :
    (s.publish keys e).received = s.received := rfl

@[simp] theorem subscriptions_publish (s : Feed K V W) (e : K × V) :
    (s.publish keys e).subscriptions = s.subscriptions := rfl

@[simp] theorem connected_publish (s : Feed K V W) (e : K × V) :
    (s.publish keys e).connected = s.connected := rfl

theorem Inv.publish (h : s.Inv read) (e : K × V) : (s.publish keys e).Inv read := by
  refine ⟨?_, ?_⟩
  · have htaken := h.taken
    by_cases hup : s.connected = true ∧ e.1 ∈ keys <;> simpa [Feed.publish, hup] using htaken
  · rw [entries_publish, published_publish]
    refine List.append_subset.2 ⟨List.Subset.trans h.origin (List.subset_append_left _ _), ?_⟩
    split
    · exact List.subset_append_right _ _
    · exact List.nil_subset _

theorem Current.publish (h : s.Current k) (hk : k ∈ keys) (e : K × V) :
    (s.publish keys e).Current k := by
  intro hup
  rw [connected_publish] at hup
  rw [entries_publish, published_publish, latest_concat]
  by_cases hkey : e.1 = k
  · have hsent : s.connected = true ∧ e.1 ∈ keys := ⟨hup, hkey ▸ hk⟩
    rw [if_pos hsent, latest_concat, if_pos hkey, if_pos hkey]
  · rw [if_neg hkey, ← h hup]
    split
    · rw [latest_concat, if_neg hkey]
    · rw [List.append_nil]

theorem Current.take {w : W} (h : s.Current k) (hs : s.take = some (w, s')) : s'.Current k := by
  obtain ⟨rest, -, rfl⟩ := take_eq_some_iff.1 hs
  exact h

theorem subscribe_eq_some_iff {order : List K} :
    s.subscribe keys order = some s' ↔
      s.inbox = [] ∧ s.forwarding = false ∧ order.Perm keys ∧
        s' = { s with
          subscriptions := s.subscriptions + 1
          connected := true
          wire := [currentValues order s.published]
          held := []
          forwarding := true } := by
  rw [subscribe, Option.ite_none_right_eq_some, Option.some.injEq]
  constructor
  · rintro ⟨⟨hinbox, hidle, horder⟩, rfl⟩
    exact ⟨hinbox, hidle, horder, rfl⟩
  · rintro ⟨hinbox, hidle, horder, rfl⟩
    exact ⟨⟨hinbox, hidle, horder⟩, rfl⟩

theorem Inv.subscribe {order : List K} (h : s.Inv read) (hs : s.subscribe keys order = some s') :
    s'.Inv read := by
  obtain ⟨-, -, -, rfl⟩ := subscribe_eq_some_iff.1 hs
  refine ⟨h.taken, ?_⟩
  have hhandled : s.handled ⊆ s.published :=
    List.Subset.trans (List.subset_append_left _ _) h.origin
  simp only [entries, List.nil_append, List.flatten_cons, List.flatten_nil, List.append_nil]
  exact List.append_subset.2 ⟨hhandled, fun e he => mem_of_mem_currentValues he⟩

/-- A new stream begins with the current value of every key. -/
theorem current_subscribe {order : List K} (h : s.Inv read) (hk : k ∈ keys)
    (hs : s.subscribe keys order = some s') : s'.Current k := by
  obtain ⟨-, -, horder, rfl⟩ := subscribe_eq_some_iff.1 hs
  intro _
  have hhandled : s.handled ⊆ s.published :=
    List.Subset.trans (List.subset_append_left _ _) h.origin
  simp only [entries, List.nil_append, List.flatten_cons, List.flatten_nil, List.append_nil]
  rw [latest_append, latest_currentValues _ (horder.mem_iff.2 hk)]
  cases hv : latest k s.published with
  | some v => rfl
  | none =>
      rw [Option.none_or]
      by_contra hne
      exact latest_ne_none_of_subset hhandled hne hv

/-- Several values are published one after the other. -/
def publishAll (keys : List K) (s : Feed K V W) (es : List (K × V)) : Feed K V W :=
  es.foldl (Feed.publish keys) s

@[simp] theorem published_publishAll (s : Feed K V W) (es : List (K × V)) :
    (s.publishAll keys es).published = s.published ++ es := by
  induction es generalizing s with
  | nil => simp [publishAll]
  | cons e es ih =>
      have hstep : s.publishAll keys (e :: es) = (s.publish keys e).publishAll keys es := rfl
      rw [hstep, ih, published_publish, List.append_assoc, List.singleton_append]

@[simp] theorem received_publishAll (s : Feed K V W) (es : List (K × V)) :
    (s.publishAll keys es).received = s.received := by
  induction es generalizing s with
  | nil => rfl
  | cons e es ih => exact (ih (s.publish keys e)).trans (received_publish s e)

theorem Inv.publishAll (h : s.Inv read) (es : List (K × V)) : (s.publishAll keys es).Inv read := by
  induction es generalizing s with
  | nil => exact h
  | cons e es ih => exact ih (h.publish e)

theorem Current.publishAll (h : s.Current k) (hk : k ∈ keys) (es : List (K × V)) :
    (s.publishAll keys es).Current k := by
  induction es generalizing s with
  | nil => exact h
  | cons e es ih => exact ih (h.publish hk e)

/-! ### What happens in between -/

/-- **What happens between the two ends keeps the invariant.** -/
theorem Inv.move {m : Move K} (h : s.Inv read) (hs : s.move read capacity keys m = some s') :
    s'.Inv read := by
  cases m with
  | subscribe order => exact h.subscribe hs
  | overrun =>
      obtain ⟨r, r', rest, hwire, rfl⟩ := overrun_eq_some_iff.1 hs
      refine ⟨h.taken, fun e he => h.origin ?_⟩
      simp only [entries, hwire, List.mem_append, List.flatten_cons] at he ⊢
      tauto
  | fetch =>
      obtain ⟨hentries, hhandled, hinbox, hpublished, hreceived, -⟩ := fetch_frame hs
      refine ⟨?_, by rw [hentries, hpublished]; exact h.origin⟩
      rw [hreceived, hinbox, hhandled]
      exact h.taken
  | forward => exact h.forward hs
  | disconnect =>
      cases hs
      exact ⟨h.taken, h.origin⟩
  | endStream =>
      obtain ⟨-, hs⟩ := Option.ite_none_right_eq_some.1 hs
      cases hs
      refine ⟨h.taken, fun e he => h.origin ?_⟩
      simp only [entries, List.flatten_nil, List.append_nil] at he
      rw [entries, ← List.append_assoc]
      exact List.mem_append_left _ he

/-- **The current value of a key stays the last one on its way,** unless the stream loses it. -/
theorem Current.move {m : Move K} (h : s.Current k) (hinv : s.Inv read) (hk : k ∈ keys)
    (hkeeps : s.Keeps k m) (hs : s.move read capacity keys m = some s') : s'.Current k := by
  cases m with
  | subscribe order => exact current_subscribe hinv hk hs
  | overrun =>
      obtain ⟨r, r', rest, hwire, rfl⟩ := overrun_eq_some_iff.1 hs
      intro hup
      rw [← h hup]
      simp only [Keeps, hwire, List.tail_cons, List.head?_cons, Option.getD_some] at hkeeps
      simp only [entries, hwire]
      rw [List.flatten_cons (l := r), latest_append, latest_append, latest_append, latest_append,
        latest_append]
      cases hrest : latest k (r' :: rest).flatten with
      | some v => simp
      | none => simp [hkeeps hrest]
  | fetch =>
      obtain ⟨hentries, -, -, hpublished, -, hconnected, -⟩ := fetch_frame hs
      intro hup
      rw [hentries, hpublished]
      exact h (hconnected ▸ hup)
  | forward =>
      obtain ⟨hentries, hpublished, -, hconnected, -⟩ := forward_frame hs
      intro hup
      rw [hentries, hpublished]
      exact h (hconnected ▸ hup)
  | disconnect =>
      cases hs
      rintro ⟨⟩
  | endStream =>
      obtain ⟨-, hs⟩ := Option.ite_none_right_eq_some.1 hs
      cases hs
      rintro ⟨⟩

/-- Nothing is published or taken between the two ends, and only a subscription counts as one. -/
theorem move_frame {m : Move K} (hs : s.move read capacity keys m = some s') :
    s'.published = s.published ∧ s'.received = s.received ∧
      ((∀ order, m ≠ .subscribe order) → s'.subscriptions = s.subscriptions) := by
  cases m with
  | subscribe order =>
      obtain ⟨-, -, -, rfl⟩ := subscribe_eq_some_iff.1 hs
      exact ⟨rfl, rfl, fun hne => absurd rfl (hne order)⟩
  | overrun =>
      obtain ⟨r, r', rest, -, rfl⟩ := overrun_eq_some_iff.1 hs
      exact ⟨rfl, rfl, fun _ => rfl⟩
  | fetch =>
      obtain ⟨-, -, -, hpublished, hreceived, -, hcount⟩ := fetch_frame hs
      exact ⟨hpublished, hreceived, fun _ => hcount⟩
  | forward =>
      obtain ⟨-, hpublished, hreceived, -, hcount, -⟩ := forward_frame hs
      exact ⟨hpublished, hreceived, fun _ => hcount⟩
  | disconnect =>
      cases hs
      exact ⟨rfl, rfl, fun _ => rfl⟩
  | endStream =>
      obtain ⟨-, hs⟩ := Option.ite_none_right_eq_some.1 hs
      cases hs
      exact ⟨rfl, rfl, fun _ => rfl⟩

/-! ### What arrives -/

/-- **The newest value of a key arrives:** a program that has taken everything from a stream that is
up, and has lost no newest value of the key, has taken the current value of the key last, if that
can be read. -/
theorem Inv.last_received {X : Type*} {field : W → Option X} {v : V} {w : W} {x : X}
    (h : s.Inv read) (hcurrent : s.Current k) (hup : s.connected = true) (hwire : s.wire = [])
    (hheld : s.held = []) (hinbox : s.inbox = []) (hv : latest k s.published = some v)
    (hw : read (k, v) = some w) (hx : field w = some x)
    (hfield : ∀ e w, read e = some w → field w ≠ none → e.1 = k) :
    (s.received.filterMap field).getLast? = some x := by
  have hlast := hcurrent hup
  rw [entries, hwire, hheld, List.flatten_nil, List.append_nil, List.append_nil, hv] at hlast
  have htaken := h.taken
  rw [hinbox, List.append_nil] at htaken
  rw [htaken]
  exact getLast?_of_latest hlast hw hx hfield

end Feed
