import AsteroidMq.Protocol.Node

/-!
# The waiter registry

Reference: `src/src/protocol/topic.rs`, `Topic::send_message`, `Topic::wait_ack`,
`hold_new_message`, `ep_online`, `update_and_flush` and `Node::remove_topic`; modelled from the
spec: `flush` and `poll_message`.

`send_message` registers the message's waiter with `wait_ack` and only then proposes the
`DelegateMessage` entry. A waiter is resolved only through `waiting.remove(&id)`, which takes it
out of the registry as it sends the report. `Resolves w w' fx` says this of code that moves the
registry from `w` to `w'` with effects `fx`: a waiter leaves exactly when it gets a report, and
none is added. Every queue function of the topic has it, one lemma each, so a run resolves the
waiter of an id at most as often as `send_message` registered it (`reports_le_sends`), and a
run that sends each id once and then removes the topic resolves each waiter exactly once
(`resolved_once_with_removal`).

Before the removal, exactly once fails: when the commit fails, the `?` returns the error and
leaves the waiter registered. No entry of the message is ever applied, so nothing resolves the
waiter until the topic is removed (`waiter_left_by_failed_commit`).
-/

namespace AsteroidMq

/-! ## Reports and registrations -/

/-- The message id an effect reports to, if it is a report. -/
def Effect.reported? : Effect → Option MessageId
  | .report id _ => some id
  | .push _ _ => none

/-- How many reports a list of effects sends to the waiter of `i`. -/
def reportsTo (i : MessageId) (fx : List Effect) : ℕ :=
  (fx.filterMap Effect.reported?).count i

@[simp] theorem reportsTo_nil (i : MessageId) : reportsTo i [] = 0 := rfl

@[simp] theorem reportsTo_append (i : MessageId) (fx fx' : List Effect) :
    reportsTo i (fx ++ fx') = reportsTo i fx + reportsTo i fx' := by
  simp [reportsTo, List.filterMap_append, List.count_append]

/-- Whether the registry `w` holds a waiter for `i`, as a count. -/
def registered (w : Finset MessageId) (i : MessageId) : ℕ :=
  if i ∈ w then 1 else 0

/-- From registry `w` to `w'` with effects `fx`, a waiter leaves the registry exactly when it gets
a report, and no waiter is added: the reports to an id and its registration after make up its
registration before. -/
def Resolves (w w' : Finset MessageId) (fx : List Effect) : Prop :=
  ∀ i, reportsTo i fx + registered w' i = registered w i

theorem Resolves.refl (w : Finset MessageId) : Resolves w w [] := fun _ => by simp

theorem Resolves.trans {w₁ w₂ w₃ : Finset MessageId} {fx₁ fx₂ : List Effect}
    (h₁ : Resolves w₁ w₂ fx₁) (h₂ : Resolves w₂ w₃ fx₂) : Resolves w₁ w₃ (fx₁ ++ fx₂) :=
  fun i => by have := h₁ i; have := h₂ i; rw [reportsTo_append]; omega

/-- Effects that only push resolve nothing. -/
theorem Resolves.of_pushes {w : Finset MessageId} {fx : List Effect}
    (hfx : ∀ e ∈ fx, e.reported? = none) : Resolves w w fx := fun i => by
  simp [reportsTo, List.filterMap_eq_nil_iff.mpr hfx]

/-! ## The queue functions -/

theorem MessageQueue.resolves_resolve (q : MessageQueue) (id : MessageId) (r : WaitAckResult) :
    Resolves q.waiting (q.resolve id r).1.waiting (q.resolve id r).2 := by
  intro i
  rw [resolve_waiting, resolve_effects]
  by_cases hi : i = id
  · subst hi
    split <;> simp [registered, reportsTo, Effect.reported?, *]
  · split <;> simp [registered, reportsTo, Effect.reported?, Ne.symm hi, hi]

theorem MessageQueue.resolves_flushFrom (hs : List HoldMessage) (w : Finset MessageId) :
    Resolves w (flushFrom hs w).1.waiting (flushFrom hs w).2 := by
  induction hs generalizing w with
  | nil => exact .refl w
  | cons h hs ih =>
    unfold flushFrom
    split
    · exact (resolves_resolve ⟨hs, w⟩ h.id _).trans (ih _)
    · exact .refl w

namespace TopicData

theorem resolves_flush (t : TopicData) :
    Resolves t.queue.waiting t.flush.1.queue.waiting t.flush.2 :=
  MessageQueue.resolves_flushFrom _ _

/-- A dispatch only pushes. -/
theorem reported_dispatchMessage (node : NodeId) (t : TopicData) (message : Message)
    (epList : List EndpointAddr) :
    ∀ e ∈ (t.dispatchMessage node message epList).2, e.reported? = none := by
  intro e he
  obtain ⟨ep, -, he⟩ := List.mem_flatMap.mp he
  unfold pushMessageToLocalEp at he
  split at he
  · split at he <;> simp_all [Effect.reported?]
  · simp at he

theorem resolves_pollMessage (node : NodeId) (t : TopicData) (id : MessageId) :
    Resolves t.queue.waiting (t.pollMessage node id).1.queue.waiting
      (t.pollMessage node id).2.2 := by
  unfold pollMessage
  split
  · exact .refl _
  · split
    · exact MessageQueue.resolves_resolve _ _ _
    · exact .of_pushes (reported_dispatchMessage _ _ _ _)

theorem resolves_updateAndFlush (node : NodeId) (t : TopicData) (u : MessageStateUpdate) :
    Resolves t.queue.waiting (t.updateAndFlush node u).1.queue.waiting
      (t.updateAndFlush node u).2 := by
  have h := resolves_pollMessage node { t with queue := t.queue.updateAcks u } u.messageId
  simp only [MessageQueue.updateAcks_waiting] at h
  dsimp only [updateAndFlush]
  split
  · exact h.trans (resolves_flush _)
  · exact h

theorem resolves_pushAndPoll (node : NodeId) (t : TopicData) (q : MessageQueue)
    (h : HoldMessage) :
    Resolves q.waiting (pushAndPoll node t q h).1.queue.waiting (pushAndPoll node t q h).2 :=
  resolves_updateAndFlush node { t with queue := q.push h } _

theorem resolves_admitMessage {node : NodeId} {env : Env} {t : TopicData} {message : Message}
    {epCollect : Finset EndpointAddr} {r : TopicData × List Effect}
    (h : t.admitMessage node env message epCollect = .ok r) :
    Resolves t.queue.waiting r.1.queue.waiting r.2 := by
  rcases admitMessage_cases h with rfl | ⟨old, q, hpop, rfl⟩ | ⟨-, rfl⟩
  · exact MessageQueue.resolves_resolve _ _ _
  · rw [← (MessageQueue.holdMessages_of_pop hpop).2]
    exact (MessageQueue.resolves_resolve _ _ _).trans (resolves_pushAndPoll _ _ _ _)
  · exact resolves_pushAndPoll _ _ _ _

theorem resolves_holdNewMessage {hash64 : ℕ → ℕ} {node : NodeId} {env : Env} {t : TopicData}
    {message : Message} {r : TopicData × List Effect}
    (h : t.holdNewMessage hash64 node env message = .ok r) :
    Resolves t.queue.waiting r.1.queue.waiting r.2 := by
  rcases holdNewMessage_cases h with ⟨-, rfl⟩ | ⟨_, -, h⟩
  · exact MessageQueue.resolves_resolve _ _ _
  · exact resolves_admitMessage h

theorem resolves_updateAndFlushEach (node : NodeId) (t : TopicData) (ids : List MessageId) :
    Resolves t.queue.waiting (t.updateAndFlushEach node ids).1.queue.waiting
      (t.updateAndFlushEach node ids).2 := by
  induction ids generalizing t with
  | nil => exact .refl _
  | cons id ids ih => exact (resolves_updateAndFlush node t _).trans (ih _)

theorem resolves_epOnline (node : NodeId) (env : Env) (t : TopicData) (endpoint : EndpointAddr)
    (interests : List Interest) (host : NodeId) :
    Resolves t.queue.waiting (t.epOnline node env endpoint interests host).1.queue.waiting
      (t.epOnline node env endpoint interests host).2 :=
  resolves_updateAndFlushEach node _ _

end TopicData

/-! ## Runs of a node -/

/-- The message ids whose waiters a list of events registers, in order. -/
def Replica.sentIds (evs : List Event) : List MessageId :=
  evs.filterMap Event.sent?

theorem Replica.sentIds_append (past : List Event) (ev : Event) :
    sentIds (past ++ [ev]) = sentIds past ++ ev.sent?.toList := by
  cases h : ev.sent? <;> simp [sentIds, h]

/-- A step registers the waiter of the message it sends, and otherwise takes a waiter out of the
registry exactly when it reports to it. -/
theorem Replica.resolves_step {hash64 : ℕ → ℕ} {env : Env} {r r' : Replica} {ev : Event}
    {fx : List Effect} (h : step hash64 env r ev = .ok (r', fx)) (i : MessageId) :
    reportsTo i fx + registered r'.topic.queue.waiting i =
      if ev.sent? = some i then 1 else registered r.topic.queue.waiting i := by
  rcases step_queue h with ⟨m, rfl, hs⟩ | ⟨e, is, host, rfl, hs⟩ | ⟨u, rfl, hs⟩ |
    ⟨m, rfl, hq, rfl⟩ | ⟨-, hsent, hq, rfl⟩
  · simpa [Event.sent?] using TopicData.resolves_holdNewMessage hs i
  · have hr := TopicData.resolves_epOnline r.node env r.topic e is host i
    simp only [hs] at hr
    simpa [Event.sent?] using hr
  · have hr := TopicData.resolves_updateAndFlush r.node r.topic u i
    simp only [hs] at hr
    simpa [Event.sent?] using hr
  · rw [hq]
    by_cases hi : m.id = i
    · subst hi
      simp [registered, MessageQueue.waitAck, Event.sent?]
    · simp [registered, MessageQueue.waitAck, Event.sent?, hi, Ne.symm hi]
  · simp [hq, hsent]

/-- On every run of a node, the waiter of a message id is resolved at most as often as
`send_message` registered it, and once less while it is still registered: a run that sends each
id once resolves each waiter at most once. -/
theorem reports_le_sends {hash64 : ℕ → ℕ} {node : NodeId} {config : TopicConfig}
    {evs : List (Env × Event)} {r : Replica} {fx : List Effect}
    (h : Replica.run hash64 (.new node config) evs = .ok (r, fx)) (i : MessageId) :
    reportsTo i fx + registered r.topic.queue.waiting i ≤
      (Replica.sentIds (evs.map Prod.snd)).count i := by
  refine @Replica.run_invariant hash64 (fun past r τ => ∀ i, reportsTo i τ +
      registered r.topic.queue.waiting i ≤ (Replica.sentIds past).count i)
    (fun past _ r ev _ _ τ hinv hs i => ?_) evs [] (.new node config) r [] fx
    (fun _ => by simp [registered, Replica.new, TopicData.new, Replica.sentIds]) h i
  have hstep := Replica.resolves_step hs i
  have hpast := hinv i
  rw [Replica.sentIds_append, List.count_append, reportsTo_append]
  by_cases hsi : ev.sent? = some i
  · rw [if_pos hsi] at hstep
    simp only [hsi, Option.toList_some, List.count_singleton_self]
    omega
  · rw [if_neg hsi] at hstep
    omega

/-- Message 3 is sent, committed and admitted with no recipient. -/
def sentOnceRun : List (Env × Event) :=
  [(⟨0, .id⟩, .sendMessage ⟨⟨3, .sent, .online, []⟩⟩), (⟨0, .id⟩, .sendMessageDone 3 true),
    (⟨0, .id⟩, .apply (.delegateMessage ⟨⟨3, .sent, .online, []⟩⟩))]

theorem reports_le_sends_sentOnce :
    ∃ r fx, Replica.run id (.new 1 ⟨⟨[]⟩, none⟩) sentOnceRun = .ok (r, fx) ∧
      reportsTo 3 fx + registered r.topic.queue.waiting 3 ≤
        (Replica.sentIds (sentOnceRun.map Prod.snd)).count 3 := by
  obtain ⟨r, fx, h⟩ : ∃ r fx, Replica.run id (.new 1 ⟨⟨[]⟩, none⟩) sentOnceRun = .ok (r, fx) :=
    ⟨_, _, rfl⟩
  exact ⟨r, fx, h, reports_le_sends h 3⟩

/-! ## Removing the topic -/

/-- `remove_topic` reports once to every registered waiter and to no other. -/
theorem reportsTo_removeTopic (r : Replica) (order : IterOrder MessageId) (i : MessageId) :
    reportsTo i (r.removeTopic order) = registered r.topic.queue.waiting i := by
  have hf : (r.removeTopic order).filterMap Effect.reported? =
      order.arrange (enumerate r.topic.queue.waiting) := by
    simp [Replica.removeTopic, List.filterMap_map, Function.comp_def, Effect.reported?]
  rw [reportsTo, hf, (order.perm _).count_eq, registered]
  split_ifs with hi
  · exact List.count_eq_one_of_mem (nodup_enumerate _) (mem_enumerate.mpr hi)
  · exact List.count_eq_zero_of_not_mem (mt mem_enumerate.mp hi)

/-- On every run of a node that sends each message id once, the reports to an id and its
registration make up the times it was sent: no waiter leaves the registry unreported. -/
theorem Replica.reports_add_registered {hash64 : ℕ → ℕ} {node : NodeId} {config : TopicConfig}
    {evs : List (Env × Event)} {r : Replica} {fx : List Effect}
    (h : run hash64 (.new node config) evs = .ok (r, fx)) (hids : (sentIds (evs.map Prod.snd)).Nodup)
    (i : MessageId) :
    reportsTo i fx + registered r.topic.queue.waiting i = (sentIds (evs.map Prod.snd)).count i := by
  refine @run_invariant hash64 (fun past r τ => (sentIds past).Nodup → ∀ i, reportsTo i τ +
      registered r.topic.queue.waiting i = (sentIds past).count i)
    (fun past _ r ev _ _ τ hinv hs hnd i => ?_) evs [] (.new node config) r [] fx
    (fun _ _ => by simp [registered, Replica.new, TopicData.new, sentIds]) h hids i
  rw [sentIds_append] at hnd ⊢
  obtain ⟨hpast, -, hdisj⟩ := List.nodup_append.mp hnd
  have hstep := resolves_step hs i
  have hprev := hinv hpast i
  rw [List.count_append, reportsTo_append]
  by_cases hsi : ev.sent? = some i
  · rw [if_pos hsi] at hstep
    have hnew : (sentIds past).count i = 0 :=
      List.count_eq_zero_of_not_mem fun hm => hdisj hm (by simp [hsi])
    simp only [hsi, Option.toList_some, List.count_singleton_self]
    omega
  · rw [if_neg hsi] at hstep
    have hzero : ev.sent?.toList.count i = 0 :=
      List.count_eq_zero_of_not_mem fun hm => hsi (by simpa using hm)
    omega

/-- A run that sends each message id once, followed by `remove_topic`, resolves the waiter of
every sent id exactly once and no other: whether the message was flushed, turned away, evicted,
or its commit failed, in which case the removal is what resolves it. -/
theorem resolved_once_with_removal {hash64 : ℕ → ℕ} {node : NodeId} {config : TopicConfig}
    {evs : List (Env × Event)} {r : Replica} {fx : List Effect}
    (h : Replica.run hash64 (.new node config) evs = .ok (r, fx))
    (hids : (Replica.sentIds (evs.map Prod.snd)).Nodup) (order : IterOrder MessageId)
    (i : MessageId) :
    reportsTo i (fx ++ r.removeTopic order) = (Replica.sentIds (evs.map Prod.snd)).count i := by
  rw [reportsTo_append, reportsTo_removeTopic, Replica.reports_add_registered h hids i]

/-- Message 3 is sent and its commit fails. -/
def failedCommitRun : List (Env × Event) :=
  [(⟨0, .id⟩, .sendMessage ⟨⟨3, .sent, .online, []⟩⟩), (⟨0, .id⟩, .sendMessageDone 3 false)]

theorem resolved_once_with_removal_failedCommit :
    ∃ r fx, Replica.run id (.new 1 ⟨⟨[]⟩, none⟩) failedCommitRun = .ok (r, fx) ∧
      (Replica.sentIds (failedCommitRun.map Prod.snd)).Nodup ∧
      reportsTo 3 (fx ++ r.removeTopic .id) =
        (Replica.sentIds (failedCommitRun.map Prod.snd)).count 3 := by
  obtain ⟨r, fx, h⟩ : ∃ r fx, Replica.run id (.new 1 ⟨⟨[]⟩, none⟩) failedCommitRun =
      .ok (r, fx) := ⟨_, _, rfl⟩
  have hids : (Replica.sentIds (failedCommitRun.map Prod.snd)).Nodup := by decide
  exact ⟨r, fx, h, hids, resolved_once_with_removal h hids .id 3⟩

/-! ## A failed commit -/

/-- A message whose proposal fails to commit leaves its waiter registered, with no hold message
and no proposal in flight, and no report sent. -/
theorem waiter_left_by_failed_commit :
    ∃ r fx, Replica.run id (.new 1 ⟨⟨[]⟩, none⟩)
        [(⟨0, .id⟩, .sendMessage ⟨⟨3, .sent, .online, []⟩⟩),
          (⟨0, .id⟩, .sendMessageDone 3 false)] = .ok (r, fx) ∧
      3 ∈ r.topic.queue.waiting ∧ r.topic.queue.holdMessages = [] ∧ r.inFlight = [] ∧ fx = [] :=
  ⟨_, _, rfl, by decide, rfl, rfl, rfl⟩

end AsteroidMq
