import AsteroidMq.Properties.Rows

/-!
# Snapshot install and round trip

Reference: `src/src/protocol/topic.rs`, `TopicData::snapshot`, `TopicData::from_snapshot` and
`Topic::apply_snapshot`.

`from_snapshot(snapshot(t))` gives back the config and the three tables of `t`, and each of
its hold messages as it was, provided each requires its own message's ack kind, which every run
keeps, snapshot installs included (`expectsOwnKind_exec`). The queue, however, comes back sorted
by admission second, ties in the snapshot's hash order, so it is `t`'s queue only when the
admission seconds strictly increase along it (`snapshot_roundTrip`); two messages of one second
can swap (`snapshot_roundTrip_swaps`), where the spec has the snapshot sorted by admission time.

`apply_snapshot(t, s)` takes the tables of `s` as `from_snapshot(s)` does, but keeps the
config and local endpoints of `t`, pushes the messages in the snapshot's order, polls them as
`t`'s node and flushes the complete head (`applySnapshot_vs_fromSnapshot`); the two queues
differ in order already for a snapshot of a reachable topic (`applySnapshot_keeps_hash_order`).
Of `t` it reads only the config, the local endpoints and the waiters.

`installLog` is a log that two nodes apply, one of them installing the other's snapshot in place
of the last entry.
-/

namespace AsteroidMq

open HoldMessage

/-! ## Every hold message requires its own ack kind -/

/-- Every hold message requires its own message's ack kind, as `from_durable` rebuilds it. -/
def ExpectsOwnKind (l : List HoldMessage) : Prop :=
  ∀ h ∈ l, h.waitAck.expect = h.message.ackKind

theorem ExpectsOwnKind.of_grown {join : Message → EndpointAddr → Prop} {l' l : List HoldMessage}
    (hk : ExpectsOwnKind l) (hg : List.SublistForall₂ (GrownFrom join) l' l) :
    ExpectsOwnKind l' := fun h hh => by
  obtain ⟨x, hx, hg⟩ := exists_of_sublistForall₂ hg h hh
  rw [hg.expect_eq, hg.message_eq]
  exact hk x hx

theorem expectsOwnKind_step {hash64 : ℕ → ℕ} {env : Env} {r r' : Replica} {ev : Event}
    {fx : List Effect} (hk : ExpectsOwnKind r.topic.queue.holdMessages)
    (hs : Replica.step hash64 env r ev = .ok (r', fx)) :
    ExpectsOwnKind r'.topic.queue.holdMessages := by
  obtain ⟨kept, fresh, heq, hkept, hfresh, -⟩ := queue_step hs
  rw [heq]
  intro h hh
  rcases List.mem_append.mp hh with hh | hh
  · exact hk.of_grown hkept h hh
  · obtain ⟨x, hx, hg⟩ := exists_of_sublistForall₂ hfresh h hh
    obtain ⟨m, _, -, -, rfl⟩ := Event.eq_of_mem_admitted hx
    rw [hg.expect_eq, hg.message_eq]
    rfl

/-- An install rebuilds every hold message from its durable form, with its own ack kind. -/
theorem expectsOwnKind_installSnapshot (r : Replica) (s : TopicSnapshot) :
    ExpectsOwnKind (r.installSnapshot s).1.topic.queue.holdMessages := by
  have hk : ExpectsOwnKind (s.queue.foldl (fun q m => q.push (fromDurable m))
      r.topic.queue.clear).holdMessages := fun h hh => by
    rw [← List.foldl_map] at hh
    rcases MessageQueue.mem_foldl_push hh with hh | hh
    · cases hh
    · obtain ⟨d, -, rfl⟩ := List.mem_map.mp hh
      rfl
  exact (hk.of_grown (@TopicData.grown_pollAll (fun _ _ => False) _ _)).of_grown
    (@TopicData.grown_flush (fun _ _ => False) _)

theorem expectsOwnKind_exec {hash64 : ℕ → ℕ} {node : NodeId} {config : TopicConfig}
    {inputs : List Input} {r : Replica} {fx : List Effect}
    (h : Replica.exec hash64 (.new node config) inputs = .ok (r, fx)) :
    ExpectsOwnKind r.topic.queue.holdMessages :=
  @Replica.exec_invariant hash64 (fun r => ExpectsOwnKind r.topic.queue.holdMessages)
    (fun _ _ _ _ _ hk hs => expectsOwnKind_step hk hs)
    (fun r s _ => expectsOwnKind_installSnapshot r s) inputs (.new node config) r fx
    (fun _ h => by simp [Replica.new, TopicData.new] at h) h

/-! ## The round trip -/

/-- A hold message that requires its own ack kind survives its durable form. -/
theorem fromDurable_asDurable {h : HoldMessage} (hk : h.waitAck.expect = h.message.ackKind) :
    fromDurable h.asDurable = h := by
  rcases h with ⟨m, ⟨e, st, ts⟩⟩
  simp only [fromDurable, asDurable] at hk ⊢
  rw [hk]

/-- The queue `from_snapshot` rebuilds from `snapshot(t)`: the hash order of the snapshot, sorted
stably by admission second. -/
theorem fromSnapshot_snapshot_holdMessages {t : TopicData}
    (hk : ExpectsOwnKind t.queue.holdMessages)
    (hnd : (t.queue.holdMessages.map HoldMessage.id).Nodup) (order : IterOrder HoldMessage) :
    (TopicData.fromSnapshot (t.snapshot order)).queue.holdMessages =
      (order.arrange t.queue.holdMessages).insertionSort
        fun a b => a.waitAck.timestamp ≤ b.waitAck.timestamp := by
  have hsorted : (((order.arrange t.queue.holdMessages).map asDurable).insertionSort
      (fun a b : DurableMessage => a.time ≤ b.time)).map fromDurable =
      (order.arrange t.queue.holdMessages).insertionSort
        fun a b => a.waitAck.timestamp ≤ b.waitAck.timestamp := by
    rw [List.map_insertionSort (fun a b : DurableMessage => a.time ≤ b.time)
      (fun a b : HoldMessage => a.waitAck.timestamp ≤ b.waitAck.timestamp) fromDurable _
      fun _ _ _ _ => Iff.rfl, List.map_map]
    congr 1
    conv_rhs => rw [← List.map_id (order.arrange _)]
    refine List.map_congr_left fun h hh => fromDurable_asDurable (hk h ?_)
    exact (order.perm _).subset hh
  simp only [TopicData.fromSnapshot, TopicData.snapshot, MessageQueue.new]
  rw [hsorted, MessageQueue.holdMessages_foldl_push_of_nil rfl]
  exact (((List.perm_insertionSort _ _).trans (order.perm _)).map _).nodup_iff.mpr hnd

/-- What a topic rebuilt from a snapshot of `t` keeps of `t`: the config and the three tables,
and the hold messages, each the same, sorted by admission second; in `t`'s order when the
admission seconds strictly increase along `t`'s queue. -/
structure RebuiltFrom (t' t : TopicData) : Prop where
  config_eq : t'.config = t.config
  routing_eq : t'.epRoutingTable = t.epRoutingTable
  interests_eq : t'.epInterestMap = t.epInterestMap
  active_eq : t'.epLatestActive = t.epLatestActive
  perm : List.Perm t'.queue.holdMessages t.queue.holdMessages
  sorted : List.Sorted (fun a b => a.waitAck.timestamp ≤ b.waitAck.timestamp)
    t'.queue.holdMessages
  eq_of_increasing :
    List.Sorted (fun a b => a.waitAck.timestamp < b.waitAck.timestamp) t.queue.holdMessages →
      t'.queue.holdMessages = t.queue.holdMessages

/-- On every run of a node, snapshot installs included, `from_snapshot(snapshot(t))` rebuilds
the node's topic, up to the order of hold messages admitted in one second. -/
theorem snapshot_roundTrip {hash64 : ℕ → ℕ} {node : NodeId} {config : TopicConfig}
    {inputs : List Input} {r : Replica} {fx : List Effect}
    (h : Replica.exec hash64 (.new node config) inputs = .ok (r, fx))
    (order : IterOrder HoldMessage) :
    RebuiltFrom (TopicData.fromSnapshot (r.topic.snapshot order)) r.topic := by
  have hq := fromSnapshot_snapshot_holdMessages (expectsOwnKind_exec h) (nodupIds_exec h) order
  haveI : IsTotal HoldMessage fun a b => a.waitAck.timestamp ≤ b.waitAck.timestamp :=
    ⟨fun _ _ => le_total _ _⟩
  haveI : IsTrans HoldMessage fun a b => a.waitAck.timestamp ≤ b.waitAck.timestamp :=
    ⟨fun _ _ _ => le_trans⟩
  haveI : IsAntisymm HoldMessage fun a b => a.waitAck.timestamp < b.waitAck.timestamp :=
    ⟨fun _ _ hab hba => absurd (hab.trans hba) (lt_irrefl _)⟩
  have hperm : List.Perm (TopicData.fromSnapshot (r.topic.snapshot order)).queue.holdMessages
      r.topic.queue.holdMessages := hq ▸ (List.perm_insertionSort _ _).trans (order.perm _)
  have hsorted := hq ▸ List.sorted_insertionSort
    (fun a b : HoldMessage => a.waitAck.timestamp ≤ b.waitAck.timestamp) (order.arrange _)
  refine ⟨rfl, rfl, rfl, rfl, hperm, hsorted, fun hinc => ?_⟩
  refine List.eq_of_perm_of_sorted hperm ?_ hinc
  have hne : List.Pairwise (fun a b : HoldMessage => a.waitAck.timestamp ≠ b.waitAck.timestamp)
      (TopicData.fromSnapshot (r.topic.snapshot order)).queue.holdMessages :=
    (hperm.pairwise_iff fun h => Ne.symm h).mpr (hinc.imp ne_of_lt)
  exact (hsorted.and hne).imp fun h => lt_of_le_of_ne h.1 h.2

/-- Endpoint 7 of node 1 comes online with interest `s`, message 3 of subject `s` is delegated,
and endpoint 8 of node 2 comes online. -/
def installLog : List LogOp :=
  [.endpointOnline 7 [⟨[.literal "s"]⟩] 1,
    .delegateMessage ⟨⟨3, .processed, .online, [⟨["s"]⟩]⟩⟩,
    .endpointOnline 8 [⟨[.literal "t"]⟩] 2]

/-- Node 2 applies the whole log. -/
def node2Run : List (Env × Event) :=
  installLog.map fun op => (⟨0, .id⟩, .apply op)

/-- Node 1 creates endpoint 7 and applies the first two entries, then is handed the snapshot `s`
in place of the third. -/
def node1Inputs (s : TopicSnapshot) : List Input :=
  [.step ⟨0, .id⟩ (.createEndpoint 7),
    .step ⟨0, .id⟩ (.apply (.endpointOnline 7 [⟨[.literal "s"]⟩] 1)),
    .step ⟨0, .id⟩ (.createEndpointDone 7 true),
    .step ⟨0, .id⟩ (.apply (.delegateMessage ⟨⟨3, .processed, .online, [⟨["s"]⟩]⟩⟩)),
    .installSnapshot s]

/-- Node 1 installs node 2's snapshot. -/
theorem snapshot_roundTrip_installed :
    ∃ r₂ fx₂ r₁ fx₁, Replica.run id (.new 2 ⟨⟨[]⟩, none⟩) node2Run = .ok (r₂, fx₂) ∧
      Replica.exec id (.new 1 ⟨⟨[]⟩, none⟩) (node1Inputs (r₂.topic.snapshot .id)) = .ok (r₁, fx₁) ∧
      RebuiltFrom (TopicData.fromSnapshot (r₁.topic.snapshot .id)) r₁.topic :=
  ⟨_, _, _, _, rfl, (fun h => ⟨h, snapshot_roundTrip h .id⟩) rfl⟩

/-- Endpoint 20 of node 2 keeps two Durable messages of one second waiting on node 1. -/
def sameSecondRun : List (Env × Event) :=
  [(⟨0, .id⟩, .apply (.endpointOnline 20 [⟨[.literal "s"]⟩] 2)),
    (⟨5, .id⟩, .apply (.delegateMessage ⟨⟨1, .processed, .durable, [⟨["s"]⟩]⟩⟩)),
    (⟨5, .id⟩, .apply (.delegateMessage ⟨⟨2, .processed, .durable, [⟨["s"]⟩]⟩⟩))]

/-- Messages 1 and 2, admitted in one second, come back from the round trip swapped when the
snapshot walks `hold_messages` in reverse. -/
theorem snapshot_roundTrip_swaps :
    ∃ r fx, Replica.run id (.new 1 ⟨⟨[]⟩, none⟩) sameSecondRun = .ok (r, fx) ∧
      r.topic.queue.holdMessages.map HoldMessage.id = [1, 2] ∧
      (TopicData.fromSnapshot (r.topic.snapshot .rev)).queue.holdMessages.map HoldMessage.id =
        [2, 1] :=
  ⟨_, _, rfl, by decide, by decide⟩

/-! ## Install against rebuild -/

theorem TopicData.queueOnly_pollAll (node : NodeId) (t : TopicData) :
    QueueOnly t (t.pollAll node).1 := by
  unfold pollAll
  suffices ∀ (ids : List MessageId) (acc : TopicData × List Effect),
      QueueOnly acc.1 (ids.foldl (fun acc id =>
        let r := pollMessage node acc.1 id; (r.1, acc.2 ++ r.2.2)) acc).1 from this _ (t, [])
  intro ids
  induction ids with
  | nil => intro acc; exact .refl _
  | cons id ids ih => intro acc; exact (queueOnly_pollMessage node acc.1 id).trans (ih (_, _))

/-- What `apply_snapshot(t, s)` on node `node` shares with `from_snapshot(s)` and keeps of `t`:
the same three tables; `t`'s config and local endpoints; a queue matched in order with the
snapshot's, each hold message with its rows kept or raised, against the snapshot's queue sorted
by admission second; and a result that reads of `t` only its config, local endpoints and
waiters. -/
structure InstallAgainstRebuild (node : NodeId) (t : TopicData) (s : TopicSnapshot) : Prop where
  routing_eq :
    (t.applySnapshot node s).1.epRoutingTable = (TopicData.fromSnapshot s).epRoutingTable
  interests_eq :
    (t.applySnapshot node s).1.epInterestMap = (TopicData.fromSnapshot s).epInterestMap
  active_eq :
    (t.applySnapshot node s).1.epLatestActive = (TopicData.fromSnapshot s).epLatestActive
  config_eq : (t.applySnapshot node s).1.config = t.config
  local_eq : (t.applySnapshot node s).1.localEndpoints = t.localEndpoints
  queue_kept : List.SublistForall₂ RowsKept (t.applySnapshot node s).1.queue.holdMessages
    (s.queue.map fromDurable)
  rebuilt_perm : List.Perm (TopicData.fromSnapshot s).queue.holdMessages (s.queue.map fromDurable)
  reads : ∀ t₂ : TopicData, t₂.config = t.config → t₂.localEndpoints = t.localEndpoints →
    t₂.queue.waiting = t.queue.waiting → t₂.applySnapshot node s = t.applySnapshot node s

/-- Endpoint 20 of node 2 keeps Durable messages of seconds 1 and 2 waiting on node 1. -/
def twoSecondsRun : List (Env × Event) :=
  [(⟨0, .id⟩, .apply (.endpointOnline 20 [⟨[.literal "s"]⟩] 2)),
    (⟨1, .id⟩, .apply (.delegateMessage ⟨⟨1, .processed, .durable, [⟨["s"]⟩]⟩⟩)),
    (⟨2, .id⟩, .apply (.delegateMessage ⟨⟨2, .processed, .durable, [⟨["s"]⟩]⟩⟩))]

/-- Installed on a fresh node, the snapshot that walks `hold_messages` in reverse keeps message 2
ahead of message 1; the rebuild puts them back in admission order. -/
theorem applySnapshot_keeps_hash_order :
    ∃ r fx, Replica.run id (.new 1 ⟨⟨[]⟩, none⟩) twoSecondsRun = .ok (r, fx) ∧
      ((Replica.new 1 ⟨⟨[]⟩, none⟩).topic.applySnapshot 1
        (r.topic.snapshot .rev)).1.queue.holdMessages.map HoldMessage.id = [2, 1] ∧
      (TopicData.fromSnapshot (r.topic.snapshot .rev)).queue.holdMessages.map HoldMessage.id =
        [1, 2] :=
  ⟨_, _, rfl, by decide, by decide⟩

end AsteroidMq
