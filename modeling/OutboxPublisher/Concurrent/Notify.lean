import OutboxPublisher.Concurrent.Log
import OutboxPublisher.Text.Uuid

/-!
# Notifications

The trigger of the table notifies a channel of the event id of every row inserted. It fires at the
end of the statement, the server queues the notification with the transaction, once for each
payload, and hands the queue over to the listeners when the transaction commits. `TriggerStep` is
the world with that bookkeeping, which hinders no step (`Step.triggers`).

The listeners are told of what the commits publish and of nothing else, each event once and in the
order of the commits, under the text that the identifier returned to the publisher displays; and a
listener who selects by that text finds the one row (`notified_log`). `Heard` is the invariant.
-/

namespace OutboxPublisher

open Interaction (Run)

/-- The displayed identifier. Reference: `Display for EventId` (`outbox-publisher/src/event.rs:29`).
-/
def EventId.display (eventId : EventId) : List Char :=
  UuidText.format eventId.uuid

/-- The payload of a new row's notification. Reference: `outbox_notify_new_event`
(`0001_initial_schema.sql:143`). -/
def outboxNotifyNewEvent (new : OutboxEvent) : List Char :=
  UuidText.format new.eventId

/-- Queue a notification, unless one with its payload is queued in the transaction. Reference:
`pg_notify` (`0001_initial_schema.sql:146`). -/
def pgNotify (queued : List (List Char)) (payload : List Char) : List (List Char) :=
  if payload ∈ queued then queued else queued ++ [payload]

/-- Distinct payloads are all queued. -/
theorem foldl_pgNotify {payloads queued : List (List Char)} (h : (queued ++ payloads).Nodup) :
    payloads.foldl pgNotify queued = queued ++ payloads := by
  induction payloads generalizing queued with
  | nil => exact (List.append_nil queued).symm
  | cons payload payloads ih =>
    have hnew : payload ∉ queued := fun hmem =>
      (List.nodup_append.1 h).2.2 payload hmem payload List.mem_cons_self rfl
    rw [List.append_cons] at h
    rw [List.foldl_cons, pgNotify, if_neg hnew, ih h, List.append_assoc, List.singleton_append]

/-- The payloads of rows with distinct event ids are distinct. -/
theorem nodup_payloads {rows : List OutboxEvent} (h : (rows.map (·.eventId)).Nodup) :
    (rows.map outboxNotifyNewEvent).Nodup := by
  have hmap := h.map (f := UuidText.format) fun _ _ h => UuidText.format_injective h
  rwa [List.map_map] at hmap

/-- Of rows with distinct payloads a payload selects one. -/
theorem filter_payload {rows : List OutboxEvent} {row : OutboxEvent}
    (h : (rows.map outboxNotifyNewEvent).Nodup) (hrow : row ∈ rows) :
    rows.filter (outboxNotifyNewEvent · = outboxNotifyNewEvent row) = [row] := by
  induction rows with
  | nil => cases hrow
  | cons r rows ih =>
    rw [List.map_cons, List.nodup_cons] at h
    rcases List.mem_cons.1 hrow with rfl | hrow
    · rw [List.filter_cons_of_pos (by simp), List.filter_eq_nil_iff.2]
      intro r hr heq
      exact h.1 (of_decide_eq_true heq ▸ List.mem_map_of_mem hr)
    · rw [List.filter_cons_of_neg, ih h.2 hrow]
      intro heq
      exact h.1 (of_decide_eq_true heq ▸ List.mem_map_of_mem hrow)

/-- The step is of no concern to the trigger. -/
def Action.Silent : Action → Prop
  | .begin | .call _ | .newV4 _ | .send | .refused | .nextval | .ret .. => True
  | _ => False

/-- The step ends what the transaction holds. -/
def Action.Discards : Action → Prop
  | .duplicate | .fail _ | .rollback | .crash => True
  | _ => False

section
variable {κ : Type}

/-- The rows a client's open transaction has inserted. -/
def World.pending (w : World κ) (c : κ) : List OutboxEvent :=
  (w.client c).elim [] OpenTx.pending

/-- An INSERT of the client is under way. -/
def World.Inserting (w : World κ) (c : κ) : Prop :=
  ∃ pending aborted call current todo k returned,
    w.client c = some ⟨pending, aborted, .inserting call current todo k, returned⟩

/-- The world with the trigger: the rows the statement under way has inserted, for which it has
still to fire, the notifications queued in each transaction, and those handed over to the listeners.
-/
structure Listened (κ : Type) where
  world : World κ
  fired : κ → List OutboxEvent
  queued : κ → List (List Char)
  channel : List (List Char)

/-- Nobody has begun, and nothing is queued. -/
structure Listened.Initial (s : Listened κ) : Prop where
  world : s.world.Initial
  fired_eq : ∀ c, s.fired c = []
  queued_eq : ∀ c, s.queued c = []

/-- The rows of a transaction are known by its client. -/
theorem World.pending_of_client {w : World κ} {c : κ} {tx : Option OpenTx} (h : w.client c = tx) :
    w.pending c = tx.elim [] OpenTx.pending := by
  rw [pending, h]

/-- The event ids a transaction holds are those of its rows. -/
theorem World.eventIds_eq (w : World κ) (c : κ) : w.eventIds c = (w.pending c).map (·.eventId) := by
  rw [eventIds, pending]
  cases w.client c <;> rfl

/-- Whether an INSERT is under way is known by the client. -/
theorem World.not_inserting {w : World κ} {c : κ} {tx : Option OpenTx} (h : w.client c = tx)
    (htx : ∀ pending aborted call current todo k returned,
      tx ≠ some ⟨pending, aborted, .inserting call current todo k, returned⟩) :
    ¬ w.Inserting c := by
  rintro ⟨pending, aborted, call, current, todo, k, returned, hc⟩
  exact htx _ _ _ _ _ _ _ (h.symm.trans hc)

variable [DecidableEq κ] [Serialize Map] [Serialize (List Value)]

/-- The steps of the world with the trigger. Reference: `outbox_events_notify`
(`0001_initial_schema.sql:152`). -/
inductive TriggerStep (s : Listened κ) : κ × Action → Listened κ → Prop
  | insert {c : κ} {w' : World κ} (row : OutboxEvent) (h : Step s.world (c, .insert) w')
      (hrow : w'.pending c = s.world.pending c ++ [row]) :
      TriggerStep s (c, .insert)
        { s with world := w', fired := Function.update s.fired c (s.fired c ++ [row]) }
  | complete {c : κ} {w' : World κ} (h : Step s.world (c, .complete) w') :
      TriggerStep s (c, .complete) ⟨w', Function.update s.fired c [], Function.update s.queued c
        (((s.fired c).map outboxNotifyNewEvent).foldl pgNotify (s.queued c)), s.channel⟩
  | discard {c : κ} {a : Action} {w' : World κ} (ha : a.Discards) (h : Step s.world (c, a) w') :
      TriggerStep s (c, a)
        ⟨w', Function.update s.fired c [], Function.update s.queued c [], s.channel⟩
  | commit {c : κ} {returned : List CallOutcome} {w' : World κ}
      (h : Step s.world (c, .commit returned) w') :
      TriggerStep s (c, .commit returned)
        ⟨w', s.fired, Function.update s.queued c [], s.channel ++ s.queued c⟩
  | silent {c : κ} {a : Action} {w' : World κ} (ha : a.Silent) (h : Step s.world (c, a) w') :
      TriggerStep s (c, a) { s with world := w' }

variable {s₀ s s' : Listened κ} {w w' : World κ} {c : κ} {a : Action} {tr : List (κ × Action)}

/-- A step with the trigger is a step of the world. -/
theorem TriggerStep.step {l : κ × Action} (h : TriggerStep s l s') : Step s.world l s'.world := by
  cases h with
  | insert _ h | complete h | discard _ h | commit h | silent _ h => exact h

/-- An INSERT under way inserts one row. -/
theorem Step.pending_insert (h : Step w (c, .insert) w') :
    (∃ row, w'.pending c = w.pending c ++ [row]) ∧ w'.Inserting c := by
  cases h with
  | insert row h hrow hfree hwait =>
    refine ⟨⟨row, ?_⟩, _, _, _, _, _, _, _, World.set_client_self ..⟩
    rw [World.pending_of_client (World.set_client_self ..), World.pending_of_client h]
    rfl

/-- The end of an INSERT leaves the rows. -/
theorem Step.pending_complete (h : Step w (c, .complete) w') : w'.pending c = w.pending c := by
  cases h with
  | complete h =>
    rw [World.pending_of_client (World.set_client_self ..), World.pending_of_client h]
    rfl

/-- Nothing is left of what a transaction held that is aborted or over. -/
theorem Step.pending_discard (ha : a.Discards) (h : Step w (c, a) w') : w'.pending c = [] := by
  cases h with
  | duplicate | fail | rollback | crash =>
    exact World.pending_of_client (World.set_client_self ..)
  | _ => cases ha

/-- A commit is of a transaction whose client is in no call, and moves its rows. -/
theorem Step.pending_commit {returned : List CallOutcome} (h : Step w (c, .commit returned) w') :
    ¬ w.Inserting c ∧ w'.pending c = [] ∧ w'.committed = w.committed ++ w.pending c := by
  cases h with
  | commit h =>
    refine ⟨World.not_inserting h fun _ _ _ _ _ _ _ he => (by cases he),
      World.pending_of_client (World.set_client_self w c none), ?_⟩
    rw [World.pending_of_client h]
    rfl

/-- A step of no concern to the trigger leaves the rows, and ends no INSERT. -/
theorem Step.pending_silent (ha : a.Silent) (h : Step w (c, a) w') :
    w'.pending c = w.pending c ∧ (w.Inserting c → w'.Inserting c) := by
  cases h with
  | begin h | call _ h | newV4 _ h | send h _ | refused h | ret h =>
    refine ⟨?_, fun hin => absurd hin (World.not_inserting h
      fun _ _ _ _ _ _ _ he => (by cases he))⟩
    rw [World.pending_of_client (World.set_client_self ..), World.pending_of_client h]
    rfl
  | nextval h =>
    refine ⟨(World.pending_of_client (World.set_client_self w c _)).trans ?_,
      fun _ => ⟨_, _, _, _, _, _, _, World.set_client_self ..⟩⟩
    rw [World.pending_of_client h]
    rfl
  | _ => cases ha

/-- **The trigger hinders no step.** -/
theorem Step.triggers (h : Step s.world (c, a) w') :
    ∃ s', TriggerStep s (c, a) s' ∧ s'.world = w' := by
  cases a with
  | insert =>
    obtain ⟨⟨row, hrow⟩, -⟩ := h.pending_insert
    exact ⟨_, .insert row h hrow, rfl⟩
  | complete => exact ⟨_, .complete h, rfl⟩
  | commit returned => exact ⟨_, .commit h, rfl⟩
  | duplicate | fail e | rollback | crash => exact ⟨_, .discard trivial h, rfl⟩
  | _ => exact ⟨_, .silent trivial h, rfl⟩

/-- Every run of the world is one with the trigger. -/
theorem TriggerStep.exists_run (s : Listened κ) (hr : Run Step s.world tr w) :
    ∃ s', Run TriggerStep s tr s' ∧ s'.world = w := by
  induction hr with
  | nil => exact ⟨s, .nil, rfl⟩
  | @snoc _ _ _ l _ hl ih =>
    obtain ⟨s₁, hrun, rfl⟩ := ih
    obtain ⟨s', hs', hw⟩ := Step.triggers (c := l.1) (a := l.2) hl
    exact ⟨s', hrun.snoc hs', hw⟩

/-- What the listeners have been told and what is queued: the payloads of the committed rows, and
those of the rows each transaction holds, the last of them where its INSERT is still under way. -/
structure Heard (s₀ s : Listened κ) : Prop where
  keys : Keys s.world
  channel : ∃ rows, s.world.committed = s₀.world.committed ++ rows ∧
    s.channel = s₀.channel ++ rows.map outboxNotifyNewEvent
  queued : ∀ c, s.queued c ++ (s.fired c).map outboxNotifyNewEvent =
    (s.world.pending c).map outboxNotifyNewEvent
  fired : ∀ c, ¬ s.world.Inserting c → s.fired c = []

namespace Heard

omit [DecidableEq κ] [Serialize Map] [Serialize (List Value)] in
/-- Before anyone began the listeners have been told nothing. -/
theorem initial (h₀ : s₀.Initial) : Heard s₀ s₀ := by
  refine ⟨h₀.world.keys, ⟨[], (List.append_nil _).symm, (List.append_nil _).symm⟩, fun c => ?_,
    fun c _ => h₀.fired_eq c⟩
  rw [h₀.queued_eq, h₀.fired_eq, World.pending_of_client (h₀.world.client_eq c)]
  rfl

/-- A step is about its client: the others' queues and rows stay as they are. -/
theorem of_client (h : Heard s₀ s) (hs : Step s.world (c, a) s'.world)
    (hchannel : ∃ rows, s'.world.committed = s₀.world.committed ++ rows ∧
      s'.channel = s₀.channel ++ rows.map outboxNotifyNewEvent)
    (hothers : ∀ d, d ≠ c → s'.fired d = s.fired d ∧ s'.queued d = s.queued d)
    (hqueued : s'.queued c ++ (s'.fired c).map outboxNotifyNewEvent =
      (s'.world.pending c).map outboxNotifyNewEvent)
    (hfired : ¬ s'.world.Inserting c → s'.fired c = []) : Heard s₀ s' := by
  refine ⟨h.keys.step hs, hchannel, fun d => ?_, fun d hd => ?_⟩
  · by_cases hdc : d = c
    · exact hdc ▸ hqueued
    · rw [(hothers d hdc).1, (hothers d hdc).2, h.queued d, World.pending, World.pending,
        hs.client_of_ne hdc]
  · by_cases hdc : d = c
    · subst hdc
      exact hfired hd
    · rw [(hothers d hdc).1]
      refine h.fired d fun hin => hd ?_
      rwa [World.Inserting, hs.client_of_ne hdc]

/-- The channel stays as it is where no row is committed. -/
theorem same_channel (h : Heard s₀ s) (hs : Step s.world (c, a) w')
    (ha : ∀ returned, a ≠ .commit returned) : ∃ rows, w'.committed = s₀.world.committed ++ rows ∧
      s.channel = s₀.channel ++ rows.map outboxNotifyNewEvent := by
  obtain ⟨rows, hrows, hchannel⟩ := h.channel
  obtain ⟨hcom, -⟩ | ⟨-, -, returned, -, hcommit, -⟩ := hs.commits
  · exact ⟨rows, hcom.trans hrows, hchannel⟩
  · exact absurd hcommit (ha returned)

omit [DecidableEq κ] [Serialize Map] [Serialize (List Value)] in
/-- The payloads of the rows of a transaction are distinct. -/
theorem nodup_pending (h : Heard s₀ s) (c : κ) :
    ((s.world.pending c).map outboxNotifyNewEvent).Nodup :=
  nodup_payloads (World.eventIds_eq s.world c ▸ h.keys.eventIds.nodup_held c)

/-- **Every step keeps the listeners told.** -/
theorem step (h : Heard s₀ s) (hs : TriggerStep s (c, a) s') : Heard s₀ s' := by
  have hupdate : ∀ {α : Type} (f : κ → α) (x : α) {d : κ}, d ≠ c →
      Function.update f c x d = f d := fun f x _ hd => Function.update_of_ne hd x f
  cases hs with
  | insert row hstep hrow =>
    refine h.of_client hstep (h.same_channel hstep (by simp)) (fun d hd => ⟨hupdate _ _ hd, rfl⟩) ?_
      fun hout => absurd hstep.pending_insert.2 hout
    simp only [Function.update_self, hrow, List.map_append, ← List.append_assoc, h.queued c]
  | complete hstep =>
    refine h.of_client hstep (h.same_channel hstep (by simp))
      (fun d hd => ⟨hupdate _ _ hd, hupdate _ _ hd⟩) ?_ fun _ => Function.update_self ..
    have hnodup := h.queued c ▸ h.nodup_pending c
    simp only [Function.update_self, List.map_nil, List.append_nil, hstep.pending_complete]
    rw [foldl_pgNotify hnodup, h.queued c]
  | discard ha hstep =>
    refine h.of_client hstep (h.same_channel hstep ?_)
      (fun d hd => ⟨hupdate _ _ hd, hupdate _ _ hd⟩) ?_ fun _ => Function.update_self ..
    · rintro returned rfl
      cases ha
    · simp only [Function.update_self, hstep.pending_discard ha]
      rfl
  | commit hstep =>
    obtain ⟨hout, hnone, hcom⟩ := hstep.pending_commit
    have hqueued := h.queued c
    rw [h.fired c hout, List.map_nil, List.append_nil] at hqueued
    refine h.of_client hstep ?_ (fun d hd => ⟨rfl, hupdate _ _ hd⟩) ?_ fun _ => h.fired c hout
    · obtain ⟨rows, hrows, hchannel⟩ := h.channel
      refine ⟨rows ++ s.world.pending c, ?_, ?_⟩
      · rw [hcom, hrows, List.append_assoc]
      · rw [hchannel, hqueued, List.map_append, List.append_assoc]
    · simp only [Function.update_self, h.fired c hout, hnone]
      rfl
  | silent ha hstep =>
    obtain ⟨hpending, hin⟩ := hstep.pending_silent ha
    refine h.of_client hstep (h.same_channel hstep ?_) (fun d hd => ⟨rfl, rfl⟩) ?_
      fun hout => h.fired c fun hc => hout (hin hc)
    · rintro returned rfl
      cases ha
    · rw [hpending]
      exact h.queued c

/-- Every run keeps the listeners told. -/
theorem run (h₀ : s₀.Initial) (hr : Run TriggerStep s₀ tr s) : Heard s₀ s :=
  hr.invariant (I := fun _ s => Heard s₀ s) (initial h₀) fun _ _ _ _ h hs => h.step hs

end Heard

/-- The payloads of rows that record events are the displayed identifiers of the events. -/
theorem payloads_of_records {rows : List OutboxEvent} {xs : List Published}
    (h : List.Forall₂ RecordsPublished rows xs) :
    rows.map outboxNotifyNewEvent = xs.map (·.eventId.display) := by
  have hmap := congrArg (List.map UuidText.format) (eventIds_of_records h)
  rwa [List.map_map, List.map_map] at hmap

/-- A run with the trigger is a run of the world. -/
theorem TriggerStep.run_world (hr : Run TriggerStep s₀ tr s) : Run Step s₀.world tr s.world := by
  have hmap := hr.map Listened.world id fun _ _ _ h => h.step
  rwa [List.map_id] at hmap

/-- **The listeners are told of every published event once.** In every run of any number of clients,
whatever the order of their steps and wherever they crash: the payloads handed over are the
displayed identifiers of the events the commits published, in the order of the commits; no two of
them are equal; and the rows of the table that a payload selects are the one row that records its
event. Reference: `outbox_notify_new_event` (`0001_initial_schema.sql:143`). -/
theorem notified_log (h₀ : s₀.Initial) (hr : Run TriggerStep s₀ tr s) :
    s.channel = s₀.channel ++ (publishedLog tr).map (·.eventId.display) ∧
    ((publishedLog tr).map (·.eventId.display)).Nodup ∧
    ∀ x ∈ publishedLog tr, ∃ row, RecordsPublished row x ∧
      s.world.committed.filter (outboxNotifyNewEvent · = x.eventId.display) = [row] := by
  have hheard := Heard.run h₀ hr
  obtain ⟨rows, hrows, hrec⟩ :=
    (Logged.run h₀.world.client_eq (TriggerStep.run_world hr)).committed
  obtain ⟨rows', hrows', hchannel⟩ := hheard.channel
  obtain rfl := List.append_cancel_left (hrows.symm.trans hrows')
  have hnodup := nodup_payloads hheard.keys.eventIds.nodup_shared
  refine ⟨payloads_of_records hrec ▸ hchannel, ?_, fun x hx => ?_⟩
  · rw [hrows, List.map_append] at hnodup
    exact payloads_of_records hrec ▸ (List.nodup_append.1 hnodup).2.1
  · obtain ⟨row, hrow, hrecx⟩ := exists_of_mem_left hrec.flip hx
    have hmem : row ∈ s.world.committed := hrows ▸ List.mem_append_right _ hrow
    refine ⟨row, hrecx, ?_⟩
    have hpay : x.eventId.display = outboxNotifyNewEvent row :=
      congrArg UuidText.format hrecx.eventId_eq.symm
    rw [hpay]
    exact filter_payload hnodup hmem

end

section
open SerdeJson

/-- The empty world with the trigger. -/
def Listened.empty (κ : Type) : Listened κ :=
  ⟨.empty κ, fun _ => [], fun _ => [], []⟩

/-- Of two overlapping transactions the listeners are told in the order of the commits. -/
theorem notified_log_two : ∃ s : Listened Bool,
    s.channel = [EventId.display ⟨2⟩, EventId.display ⟨1⟩] ∧
      s.world.committed = [startedRow 2 2, startedRow 1 1] := by
  obtain ⟨s, hrun, hworld⟩ := TriggerStep.exists_run (.empty Bool) overlapping_run
  have h₀ : (Listened.empty Bool).Initial := ⟨World.empty_initial, fun _ => rfl, fun _ => rfl⟩
  exact ⟨s, (notified_log h₀ hrun).1, hworld ▸ rfl⟩

end

end OutboxPublisher
