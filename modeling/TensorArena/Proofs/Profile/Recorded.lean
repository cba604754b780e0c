import Mathlib.Algebra.GroupWithZero.Nat
import Mathlib.Data.Fintype.Card
import Mathlib.Data.List.Forall2
import TensorArena.Profile.Timing

/-!
# What a timing records

A timing answers calls in any order, with any event numbers. What it has to have measured is told by
a `TimingTally`, which knows nothing of the table of events: it sees the calls and their answers, and
keeps the events that were started and the stops that were taken, since the metrics were taken last.

Every stop that was taken stands in the metrics once, under the tag of its event. So an event is in
there as often as it was stopped. An event that was stopped stays in the table, and stopping it again
is one more entry; only as long as no event is stopped twice the metrics have at most one entry for
each event.
-/

namespace TensorArena

/-- A call on a timing, with the clock that it reads. -/
inductive TimingCall where
  | start (now : Nat) (tag : String)
  | stop (now event : Nat)
  | take

inductive TimingAnswer where
  | started (result : Except ProfilerError Nat)
  | stopped (result : Except ProfilerError Unit)
  | taken (metrics : Metrics)

namespace Timing

def answer (t : Timing) : TimingCall → TimingAnswer × Timing
  | .start now tag => let (result, t) := t.start now tag; (.started result, t)
  | .stop now event => let (result, t) := t.stop now event; (.stopped result, t)
  | .take => let (metrics, t) := t.take; (.taken metrics, t)

end Timing

/-- A stop that was taken: the event and the clock. -/
structure TakenStop where
  event : Nat
  now : Nat
  deriving DecidableEq, Repr

/-- What the answers since the metrics were taken tell: the events that were started and the stops
that were taken, each in their order. -/
structure TimingTally where
  started : List StartedEvent := []
  stops : List TakenStop := []
  deriving DecidableEq, Repr

namespace TimingTally

def note (y : TimingTally) : TimingCall → TimingAnswer → TimingTally
  | .start now tag, .started (.ok _) => { y with started := y.started ++ [⟨tag, now⟩] }
  | .stop now event, .stopped (.ok _) => { y with stops := y.stops ++ [⟨event, now⟩] }
  | .take, _ => {}
  | _, _ => y

/-- The entry is that of the stop: it has the tag of the event, and the time since its start. -/
def IsEntry (y : TimingTally) (entry : OperatorTime) (stop : TakenStop) : Prop :=
  ∃ e, y.started[stop.event]? = some e ∧ entry = ⟨e.tag, stop.now - e.start⟩

/-- Events that are started later leave the entries what they are. -/
theorem IsEntry.start {entry : OperatorTime} {stop : TakenStop}
    {y : TimingTally} (h : y.IsEntry entry stop) (e : StartedEvent) :
    IsEntry { y with started := y.started ++ [e] } entry stop := by
  obtain ⟨e', he', hentry⟩ := h
  have hlt : stop.event < y.started.length := (List.getElem?_eq_some_iff.mp he').1
  exact ⟨e', (List.getElem?_append_left hlt).trans he', hentry⟩

/-- No event was stopped more than once. -/
def Once (y : TimingTally) : Prop :=
  (y.stops.map TakenStop.event).Nodup

instance (y : TimingTally) : Decidable y.Once :=
  inferInstanceAs (Decidable (List.Nodup _))

end TimingTally

namespace Timing

/-- One call, with what is told of it. -/
def step (s : Timing × TimingTally) (call : TimingCall) : Timing × TimingTally :=
  ((s.1.answer call).2, s.2.note call (s.1.answer call).1)

/-- A timing for so many events and its tally after some calls. -/
def after (most : Nat) (calls : List TimingCall) : Timing × TimingTally :=
  calls.foldl step ({ most }, {})

/-- A timing has measured what the tally tells. -/
structure Follows (t : Timing) (y : TimingTally) : Prop where
  started_eq : t.started.toList = y.started
  size_le : t.started.size ≤ t.most
  entries : List.Forall₂ y.IsEntry t.metrics.operators.toList y.stops
  total_eq : t.metrics.operatorTotal = (t.metrics.operators.toList.map OperatorTime.nanos).sum

variable {t : Timing} {y : TimingTally}

theorem Follows.getElem?_started (h : t.Follows y) (event : Nat) :
    t.started[event]? = y.started[event]? := by
  rw [← h.started_eq, Array.getElem?_toList]

/-! ## One call -/

theorem follows_nil (most : Nat) : Follows { most } {} where
  started_eq := rfl
  size_le := Nat.zero_le _
  entries := .nil
  total_eq := rfl

theorem Follows.start (h : t.Follows y) (hsize : t.started.size ≠ t.most) (e : StartedEvent) :
    Follows { t with started := t.started.push e } { y with started := y.started ++ [e] } where
  started_eq := by rw [Array.toList_push, h.started_eq]
  size_le := by
    rw [Array.size_push]
    exact Nat.lt_of_le_of_ne h.size_le hsize
  entries := h.entries.imp fun _ _ hentry => hentry.start e
  total_eq := h.total_eq

theorem Follows.stop (h : t.Follows y) {event : Nat} {e : StartedEvent}
    (he : y.started[event]? = some e) (now : Nat) :
    Follows { t with metrics := t.metrics.record e.tag (now - e.start) }
      { y with stops := y.stops ++ [⟨event, now⟩] } where
  started_eq := h.started_eq
  size_le := h.size_le
  entries := by
    have hlast : y.IsEntry ⟨e.tag, now - e.start⟩ ⟨event, now⟩ := ⟨e, he, rfl⟩
    rw [Metrics.record, Array.toList_push]
    exact List.rel_append h.entries (.cons hlast .nil)
  total_eq := by
    rw [Metrics.record, Array.toList_push, List.map_append, List.sum_append, h.total_eq]
    rfl

/-- A stop is taken if its event is in the tally, and records it. -/
theorem Follows.stop_of_started (h : t.Follows y) {event : Nat} {e : StartedEvent}
    (he : y.started[event]? = some e) (now : Nat) :
    t.stop now event = (.ok (), { t with metrics := t.metrics.record e.tag (now - e.start) }) := by
  simp only [Timing.stop, h.getElem?_started, he]

/-- A stop of any other event is refused and changes nothing. -/
theorem Follows.stop_of_unknown (h : t.Follows y) {event : Nat} (he : y.started.length ≤ event)
    (now : Nat) : t.stop now event = (.error (.unknownEvent event), t) := by
  simp only [Timing.stop, h.getElem?_started, List.getElem?_eq_none he]

theorem most_step (t : Timing) (y : TimingTally) (call : TimingCall) :
    (step (t, y) call).1.most = t.most := by
  cases call with
  | start now tag =>
    simp only [step, answer, Timing.start]
    split <;> rfl
  | stop now event =>
    simp only [step, answer, Timing.stop]
    split <;> rfl
  | take => rfl

theorem Follows.step (h : t.Follows y) (call : TimingCall) :
    (step (t, y) call).1.Follows (step (t, y) call).2 := by
  cases call with
  | start now tag =>
    by_cases hsize : t.started.size = t.most
    · simp only [Timing.step, answer, Timing.start, if_pos hsize, TimingTally.note]
      exact h
    · simp only [Timing.step, answer, Timing.start, if_neg hsize, TimingTally.note]
      exact h.start hsize ⟨tag, now⟩
  | stop now event =>
    cases he : y.started[event]? with
    | none =>
      have hrefused := h.stop_of_unknown (List.getElem?_eq_none_iff.mp he) now
      simp only [Timing.step, answer, hrefused, TimingTally.note]
      exact h
    | some e =>
      simp only [Timing.step, answer, h.stop_of_started he, TimingTally.note]
      exact h.stop he now
  | take => exact follows_nil t.most

/-! ## Any calls -/

theorem after_concat (most : Nat) (calls : List TimingCall) (call : TimingCall) :
    after most (calls ++ [call]) = step (after most calls) call := by
  simp only [after, List.foldl_append, List.foldl_cons, List.foldl_nil]

theorem follows_after (most : Nat) (calls : List TimingCall) :
    (after most calls).1.Follows (after most calls).2 ∧ (after most calls).1.most = most := by
  induction calls using List.reverseRecOn with
  | nil => exact ⟨follows_nil most, rfl⟩
  | append_singleton calls call ih =>
    rw [after_concat]
    exact ⟨ih.1.step call, (most_step _ _ call).trans ih.2⟩

/-- Where no event was stopped twice, different entries are of different events. -/
theorem Follows.exists_injective (h : t.Follows y) (honce : y.Once) :
    ∃ event : Fin t.metrics.operators.size → Fin y.started.length, Function.Injective event ∧
      ∀ k, t.metrics.operators[k].tag = y.started[event k].tag := by
  have hlength : t.metrics.operators.size = y.stops.length := h.entries.length_eq
  have hentry : ∀ k : Fin t.metrics.operators.size,
      y.IsEntry t.metrics.operators[k] y.stops[k] := by
    intro k
    exact h.entries.get k.isLt (hlength ▸ k.isLt)
  choose e he hrecord using hentry
  have hlt : ∀ k : Fin t.metrics.operators.size, y.stops[k].event < y.started.length :=
    fun k => (List.getElem?_eq_some_iff.mp (he k)).1
  refine ⟨fun k => ⟨y.stops[k].event, hlt k⟩, ?_, fun k => ?_⟩
  · intro j k hjk
    have hevent : ∀ k : Fin t.metrics.operators.size,
        (y.stops.map TakenStop.event)[k.val]? = some y.stops[k].event := by
      intro k
      rw [List.getElem?_map, List.getElem?_eq_getElem (hlength ▸ k.isLt)]
      rfl
    have hbound : j.val < (y.stops.map TakenStop.event).length := by
      rw [List.length_map, ← hlength]
      exact j.isLt
    have hsame : y.stops[j].event = y.stops[k].event := congrArg Fin.val hjk
    exact Fin.ext ((List.getElem?_inj hbound honce).mp (by rw [hevent j, hevent k, hsame]))
  · have htag := congrArg OperatorTime.tag (hrecord k)
    have hstarted := (List.getElem?_eq_some_iff.mp (he k)).2
    rw [htag, ← hstarted]
    rfl

/-- After any calls the metrics have one entry for each stop that was taken since they were taken
last, under the tag of its event, and their total is the sum of the entries. No more events are
started than the table holds; a number that none of them has is refused and leaves everything as it
was. As long as no event is stopped twice, each event has at most one entry, so there are no more
entries than the table holds events. -/
theorem one_entry_for_each_stop (most : Nat) (calls : List TimingCall) :
    let t := (after most calls).1
    let y := (after most calls).2
    y.started.length ≤ most ∧
      List.Forall₂ y.IsEntry t.metrics.operators.toList y.stops ∧
      t.metrics.operatorTotal = (t.metrics.operators.toList.map OperatorTime.nanos).sum ∧
      (∀ now event, y.started.length ≤ event →
        t.stop now event = (.error (.unknownEvent event), t)) ∧
      (y.Once →
        (∃ event : Fin t.metrics.operators.size → Fin y.started.length, Function.Injective event ∧
          ∀ k, t.metrics.operators[k].tag = y.started[event k].tag) ∧
        t.metrics.operators.size ≤ most) := by
  intro t y
  obtain ⟨h, hmost⟩ : t.Follows y ∧ t.most = most := follows_after most calls
  have hsize : y.started.length ≤ most := by
    rw [← hmost, ← h.started_eq, Array.length_toList]
    exact h.size_le
  refine ⟨hsize, h.entries, h.total_eq, fun now event he => h.stop_of_unknown he now, fun honce => ?_⟩
  obtain ⟨event, hinjective, htag⟩ := h.exists_injective honce
  have hcard := Fintype.card_le_of_injective event hinjective
  rw [Fintype.card_fin, Fintype.card_fin] at hcard
  exact ⟨⟨event, hinjective, htag⟩, Nat.le_trans hcard hsize⟩

/-- Two events, stopped in the other order, after the metrics of a third were taken. -/
theorem one_entry_for_each_stop_of_two :
    let calls : List TimingCall := [.start 0 "c", .stop 4 0, .take, .start 5 "a", .start 6 "b",
      .stop 9 1, .stop 12 0]
    (after 2 calls).1.metrics.operators = #[⟨"b", 3⟩, ⟨"a", 7⟩] ∧
      (after 2 calls).2.Once ∧ (after 2 calls).1.metrics.operators.size ≤ 2 := by
  intro calls
  have honce : (after 2 calls).2.Once := by decide
  exact ⟨rfl, honce, ((one_entry_for_each_stop 2 calls).2.2.2.2 honce).2⟩

/-- An event that was stopped can be stopped again: the table holds one event, and the metrics have two
entries for it. -/
theorem stopped_twice_recorded_twice :
    let stopped := after 1 [.start 0 "a", .stop 5 0]
    let again := after 1 [.start 0 "a", .stop 5 0, .stop 9 0]
    stopped.1.metrics.operators = #[⟨"a", 5⟩] ∧ (stopped.1.stop 9 0).1 = .ok () ∧
      again.2.started = [⟨"a", 0⟩] ∧ again.1.metrics.operators = #[⟨"a", 5⟩, ⟨"a", 9⟩] ∧
      again.1.metrics.operatorTotal = 14 ∧ ¬ again.1.metrics.operators.size ≤ 1 := by
  intro stopped again
  exact ⟨rfl, rfl, rfl, rfl, rfl, by decide⟩

end Timing

end TensorArena
