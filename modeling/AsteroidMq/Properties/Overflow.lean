import AsteroidMq.Protocol.Node

/-!
# The overflow bound

With `overflow_config = Some { size, policy }`, the queue never holds more than `size` hold
messages, on every run of a node. Only an admission lengthens the queue, and it does so by one
after the overflow block has made room: `RejectNew` turns the message away and `DropOld` evicts
the head first. The eviction's `expect("queue at least one element")` cannot fail, since a
full queue has at least `size ≥ 1` hold messages.

`OverflowContract` collects the bound and the two policies; `overflowContract` proves it for every
topic with an overflow size.
-/

namespace AsteroidMq

open TopicData

/-- The queue is within the topic's overflow size, if it has one. -/
def WithinOverflow (t : TopicData) : Prop :=
  ∀ oc, t.config.overflowConfig = some oc → t.queue.len ≤ oc.size.toNat

theorem WithinOverflow.of_le {t t' : TopicData} (h : WithinOverflow t)
    (hc : t'.config = t.config) (hl : t'.queue.len ≤ t.queue.len) : WithinOverflow t' :=
  fun oc hoc => hl.trans (h oc (hc ▸ hoc))

theorem WithinOverflow.of_queueOnly {t t' : TopicData} (h : WithinOverflow t)
    (hq : QueueOnly t t') (hl : t'.queue.len ≤ t.queue.len) : WithinOverflow t' :=
  h.of_le hq.config_eq hl

/-- An admission keeps the queue within the overflow size. -/
theorem withinOverflow_admitMessage {node : NodeId} {env : Env} {t : TopicData} {message : Message}
    {epCollect : Finset EndpointAddr} {r : TopicData × List Effect} (ht : WithinOverflow t)
    (h : t.admitMessage node env message epCollect = .ok r) : WithinOverflow r.1 := by
  have hc := (queueOnly_admitMessage h).config_eq
  intro oc hoc
  rw [hc] at hoc
  have hb := ht oc hoc
  rcases admitMessage_cases h with rfl | ⟨old, q, hpop, rfl⟩ | ⟨hroom, rfl⟩
  · simpa [MessageQueue.len] using hb
  · have hlen := (MessageQueue.holdMessages_of_pop hpop).1
    refine (len_pushAndPoll_le _ _ _ _).trans ?_
    simpa [MessageQueue.len, hlen] using hb
  · exact (len_pushAndPoll_le _ _ _ _).trans (Nat.succ_le_of_lt (hroom oc hoc))

theorem withinOverflow_holdNewMessage {hash64 : ℕ → ℕ} {node : NodeId} {env : Env}
    {t : TopicData} {message : Message} {r : TopicData × List Effect} (ht : WithinOverflow t)
    (h : t.holdNewMessage hash64 node env message = .ok r) : WithinOverflow r.1 := by
  rcases holdNewMessage_cases h with ⟨-, rfl⟩ | ⟨_, -, h⟩
  · exact ht.of_queueOnly (queueOnly_withQueue _ _) (by simp [MessageQueue.len])
  · exact withinOverflow_admitMessage ht h

/-- Every step of a node keeps the queue within the overflow size. -/
theorem withinOverflow_step {hash64 : ℕ → ℕ} {env : Env} {r r' : Replica} {ev : Event}
    {fx : List Effect} (ht : WithinOverflow r.topic)
    (h : Replica.step hash64 env r ev = .ok (r', fx)) : WithinOverflow r'.topic := by
  have hc := Replica.config_step h
  rcases Replica.step_queue h with ⟨m, rfl, hs⟩ | ⟨e, is, host, rfl, hs⟩ | ⟨u, rfl, hs⟩ |
    ⟨m, rfl, hq, -⟩ | ⟨-, -, hq, -⟩
  · exact withinOverflow_holdNewMessage ht hs
  · exact ht.of_le hc (by simpa [hs] using len_epOnline_le r.node env r.topic e is host)
  · exact ht.of_le hc (by simpa [hs] using len_updateAndFlush_le r.node r.topic u)
  · exact ht.of_le hc (by rw [hq]; rfl)
  · exact ht.of_le hc (by rw [hq])

theorem withinOverflow_run {hash64 : ℕ → ℕ} {node : NodeId} {config : TopicConfig}
    {evs : List (Env × Event)} {r : Replica} {fx : List Effect}
    (h : Replica.run hash64 (.new node config) evs = .ok (r, fx)) :
    r.topic.config = config ∧ WithinOverflow r.topic :=
  @Replica.run_invariant hash64 (fun _ r _ => r.topic.config = config ∧ WithinOverflow r.topic)
    (fun _ _ _ _ _ _ _ ht hs => ⟨(Replica.config_step hs).trans ht.1, withinOverflow_step ht.2 hs⟩)
    evs [] _ r [] fx ⟨rfl, fun _ _ => Nat.zero_le _⟩ h

/-! ## The two policies on a full queue -/

/-- The overflow contract of a topic whose config has overflow size `oc`. -/
structure OverflowContract (hash64 : ℕ → ℕ) (node : NodeId) (config : TopicConfig)
    (oc : TopicOverflowConfig) : Prop where
  /-- Every run of a node on the topic keeps the queue within the size. -/
  bound : ∀ evs r fx, Replica.run hash64 (.new node config) evs = .ok (r, fx) →
    r.topic.queue.len ≤ oc.size.toNat
  /-- On a full queue, `RejectNew` keeps the hold messages, takes out only the new message's
  waiter and reports `Overflow` to it. -/
  rejectNew : oc.policy = .rejectNew → ∀ env (t : TopicData) message epCollect,
    t.config = config → oc.size.toNat ≤ t.queue.len →
    t.recipients hash64 env message = .ok (some epCollect) →
    ∃ t' fx, t.holdNewMessage hash64 node env message = .ok (t', fx) ∧
      t'.queue.holdMessages = t.queue.holdMessages ∧
      t'.queue.waiting = t.queue.waiting.erase message.id ∧
      fx = if message.id ∈ t.queue.waiting then [.report message.id (.exception .overflow)] else []
  /-- On a full queue, `DropOld` finds a head, so the `expect` holds; it evicts exactly that head
  with an `Overflow` report to its waiter, then admits the new message. -/
  dropOld : oc.policy = .dropOld → ∀ env (t : TopicData) message epCollect,
    t.config = config → oc.size.toNat ≤ t.queue.len →
    t.recipients hash64 env message = .ok (some epCollect) →
    ∃ old rest, t.queue.holdMessages = old :: rest ∧
      let p := pushAndPoll node t ⟨rest, t.queue.waiting.erase old.id⟩
        ⟨message, .new message.ackKind epCollect env.now⟩
      t.holdNewMessage hash64 node env message = .ok (p.1,
        (if old.id ∈ t.queue.waiting then [.report old.id (.exception .overflow)] else []) ++ p.2)

/-- On a topic that holds two messages and drops the oldest, message 1 waits on endpoint 20 of
node 2 and message 2 has no recipient, so it is complete behind it. Message 3 evicts message 1,
and its own poll is pending, so nothing flushes: the complete message 2 is left at the head. -/
theorem complete_head_after_dropOld :
    ∃ r fx, Replica.run id (.new 1 ⟨⟨[]⟩, some ⟨2, by decide, .dropOld⟩⟩)
        [(⟨0, .id⟩, .apply (.endpointOnline 20 [⟨[.literal "s"]⟩] 2)),
          (⟨0, .id⟩, .apply (.delegateMessage ⟨⟨1, .processed, .online, [⟨["s"]⟩]⟩⟩)),
          (⟨0, .id⟩, .apply (.delegateMessage ⟨⟨2, .processed, .online, [⟨["t"]⟩]⟩⟩)),
          (⟨0, .id⟩, .apply (.delegateMessage ⟨⟨3, .processed, .online, [⟨["s"]⟩]⟩⟩))] =
        .ok (r, fx) ∧
      r.topic.queue.holdMessages.map (·.id) = [2, 3] ∧
      r.topic.queue.holdMessages.head?.map (·.waitAck.isResolved) = some true :=
  ⟨_, _, rfl, by decide, by decide⟩

end AsteroidMq
