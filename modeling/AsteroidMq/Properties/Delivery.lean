import AsteroidMq.Properties.SnapshotLaws

/-!
# Delivery to local endpoints

Reference: `src/src/protocol/topic.rs`, `push_message_to_local_ep`, `dispatch_message`,
`resolve_node_ep_map`, `ep_online`, `Topic::create_endpoint` and `Topic::apply_snapshot`;
modelled from the spec: `poll_message`.

A message reaches an endpoint's mailbox only through a poll, which dispatches it to the
endpoint's `Unsent` row. On a list without repeats a dispatch gives one result for each endpoint
of the list that is routed to this node, `Ok` exactly for a live local endpoint, and pushes the
message once to each endpoint with an `Ok` and to no other (`dispatchMessage_accounts`). An
endpoint of the list with no route gets no result: `resolve_node_ep_map` drops it. After
`EndpointOffline` a message's row for the endpoint is therefore never written again, and stays
`Unsent` (`offline_row_stays_unsent`).

Delivery is neither once nor in admission order per endpoint. The `Sent` a poll records on a
node is that node's own: another replica of the same log keeps the row `Unsent`, and a node
that installs that replica's snapshot polls the message again and pushes it a second time. And
`ep_online` re-polls its Durable backlog in the order of a `HashSet`, so a message admitted later
can reach the endpoint first (`pushes_repeat_and_reorder`).

`create_endpoint` inserts the new endpoint into `local_endpoints` only once the commit of its
`EndpointOnline` returns, while the applier of that very entry already re-polls the Durable
backlog for it: the backlog finds no local endpoint and records `Unreachable`
(`backlog_unreachable_on_create`).
-/

namespace AsteroidMq

open HoldMessage

/-- The endpoint and message id of a push, if the effect is one. -/
def Effect.pushed? : Effect → Option (EndpointAddr × MessageId)
  | .push ep m => some (ep, m.id)
  | .report _ _ => none

/-- The (endpoint, message id) pairs that a list of effects pushes, in order. -/
def pushes (fx : List Effect) : List (EndpointAddr × MessageId) :=
  fx.filterMap Effect.pushed?

@[simp] theorem pushes_nil : pushes [] = [] := rfl

@[simp] theorem pushes_append (fx fx' : List Effect) :
    pushes (fx ++ fx') = pushes fx ++ pushes fx' :=
  List.filterMap_append _ _ _

theorem TopicData.pushes_pushMessageToLocalEp (t : TopicData) (ep : EndpointAddr)
    (message : Message) : pushes (t.pushMessageToLocalEp ep message).2 =
      if (t.pushMessageToLocalEp ep message).1 then [(ep, message.id)] else [] := by
  unfold pushMessageToLocalEp
  split
  · split <;> rfl
  · rfl

/-- A dispatch pushes to the endpoints it reports `Ok` for, each once. -/
theorem TopicData.pushes_dispatchMessage (node : NodeId) (t : TopicData) (message : Message)
    (epList : List EndpointAddr) :
    pushes (t.dispatchMessage node message epList).2 =
      ((epList.filter fun ep => t.epRoutingTable.lookup ep = some node).filter
        fun ep => (t.pushMessageToLocalEp ep message).1).map fun ep => (ep, message.id) := by
  rw [dispatchMessage_eq]
  generalize epList.filter _ = eps
  induction eps with
  | nil => rfl
  | cons ep eps ih =>
    simp only [List.flatMap_cons, pushes_append, ih, pushes_pushMessageToLocalEp,
      List.filter_cons]
    split <;> simp_all

/-! ## Rows after a dispatch -/

theorem lookup_applyResults_of_not_mem {h : HoldMessage} {results : List (EndpointAddr × Bool)}
    {e : EndpointAddr} (he : e ∉ results.map Prod.fst) :
    (h.applyResults results).waitAck.status.lookup e = h.waitAck.status.lookup e := by
  induction results generalizing h with
  | nil => rfl
  | cons r rs ih =>
    simp only [List.map_cons, List.mem_cons, not_or] at he
    exact (ih he.2).trans (by simp [Finmap.lookup_insert_of_ne _ he.1])

/-- Every endpoint with a dispatch result has left `Unsent`. -/
theorem ne_unsent_applyResults {h : HoldMessage} {results : List (EndpointAddr × Bool)}
    {e : EndpointAddr} (he : e ∈ results.map Prod.fst) :
    ∃ s, (h.applyResults results).waitAck.status.lookup e = some s ∧ s ≠ .unsent := by
  induction results generalizing h with
  | nil => simp at he
  | cons r rs ih =>
    by_cases hrs : e ∈ rs.map Prod.fst
    · exact ih hrs
    · have her : e = r.1 := by simpa [hrs] using he
      subst her
      refine ⟨if r.2 then .sent else .unreachable,
        (lookup_applyResults_of_not_mem hrs).trans (by simp), ?_⟩
      split <;> simp

/-- With distinct ids, the hold message that `modifyHold` rewrites is the only one with its id. -/
theorem eq_of_mem_modifyHold {id : MessageId} {f : HoldMessage → HoldMessage}
    {l : List HoldMessage} (hnd : (l.map HoldMessage.id).Nodup) {h' : HoldMessage}
    (hh : h' ∈ modifyHold id f l) (hid : h'.id = id) :
    ∃ h, l.find? (fun h => h.id = id) = some h ∧ h' = f h := by
  induction l with
  | nil => simp [modifyHold] at hh
  | cons x xs ih =>
    simp only [List.map_cons, List.nodup_cons, List.mem_map] at hnd
    unfold modifyHold at hh
    split at hh
    · rcases List.mem_cons.mp hh with rfl | hh
      · exact ⟨x, by simp [*], rfl⟩
      · exact absurd ⟨h', hh, hid.trans ‹x.id = id›.symm⟩ hnd.1
    · rcases List.mem_cons.mp hh with rfl | hh
      · exact absurd hid ‹¬h'.id = id›
      · obtain ⟨h, hf, rfl⟩ := ih hnd.2 hh
        exact ⟨h, by simp [*], rfl⟩

namespace TopicData

theorem pushMessageToLocalEp_fst (t : TopicData) (ep : EndpointAddr) (message : Message) :
    (t.pushMessageToLocalEp ep message).1 = true ↔ ∃ r, t.getLocalEp ep = some r ∧ r.alive = true := by
  unfold pushMessageToLocalEp
  rcases t.getLocalEp ep with _ | ⟨_ | _⟩ <;> simp

/-- `dispatch_message` on a list without repeats: one result for each endpoint of the list routed
to this node and none for any other, `Ok` exactly for a live local endpoint, and one push of the
message to each endpoint with an `Ok` and to no other. -/
theorem dispatchMessage_accounts (node : NodeId) (t : TopicData) (message : Message)
    {epList : List EndpointAddr} (hnd : epList.Nodup) :
    ((t.dispatchMessage node message epList).1.map (·.1)).Nodup ∧
    (∀ ep, ep ∈ (t.dispatchMessage node message epList).1.map (·.1) ↔
        ep ∈ epList ∧ t.epRoutingTable.lookup ep = some node) ∧
    (∀ ep ok, (ep, ok) ∈ (t.dispatchMessage node message epList).1 →
        (ok = true ↔ ∃ r, t.getLocalEp ep = some r ∧ r.alive = true)) ∧
    (pushes (t.dispatchMessage node message epList).2).Nodup ∧
    ∀ ep id, (ep, id) ∈ pushes (t.dispatchMessage node message epList).2 ↔
        id = message.id ∧ (ep, true) ∈ (t.dispatchMessage node message epList).1 := by
  have hnd' := hnd.filter fun ep => t.epRoutingTable.lookup ep = some node
  have hfst : (t.dispatchMessage node message epList).1.map (·.1) =
      epList.filter fun ep => t.epRoutingTable.lookup ep = some node := by
    rw [dispatchMessage_eq]
    simp only [List.map_map, Function.comp_def, List.map_id']
  refine ⟨hfst ▸ hnd', fun ep => by simp [hfst], fun ep ok h => ?_, ?_, fun ep id => ?_⟩
  · rw [dispatchMessage_eq] at h
    obtain ⟨_, -, he⟩ := List.mem_map.mp h
    cases he
    exact pushMessageToLocalEp_fst t ep message
  · rw [pushes_dispatchMessage]
    exact (hnd'.filter _).map fun a b h => (Prod.mk.inj h).1
  · rw [pushes_dispatchMessage, dispatchMessage_eq]
    simp only [List.mem_map, List.mem_filter, Prod.mk.injEq]
    constructor
    · rintro ⟨e, ⟨he, hok⟩, rfl, rfl⟩
      exact ⟨rfl, e, he, rfl, hok⟩
    · rintro ⟨rfl, e, he, rfl, hok⟩
      exact ⟨e, ⟨he, hok⟩, rfl, rfl⟩

/-- Node 1 dispatches to endpoint 7, a live local endpoint routed to it, and to endpoint 8,
which has no route. -/
theorem dispatchMessage_accounts_routed :
    let t : TopicData := { TopicData.new ⟨⟨[]⟩, none⟩ with
      localEndpoints := (∅ : Finmap fun _ : EndpointAddr => LocalEndpointRef).insert 7 ⟨true⟩
      epRoutingTable := (∅ : Finmap fun _ : EndpointAddr => NodeId).insert 7 1 }
    let m : Message := ⟨⟨1, .processed, .online, []⟩⟩
    (t.dispatchMessage 1 m [7, 8]).1 = [(7, true)] ∧
    ((t.dispatchMessage 1 m [7, 8]).1.map (·.1)).Nodup ∧
    (∀ ep, ep ∈ (t.dispatchMessage 1 m [7, 8]).1.map (·.1) ↔
        ep ∈ [7, 8] ∧ t.epRoutingTable.lookup ep = some 1) ∧
    (∀ ep ok, (ep, ok) ∈ (t.dispatchMessage 1 m [7, 8]).1 →
        (ok = true ↔ ∃ r, t.getLocalEp ep = some r ∧ r.alive = true)) ∧
    (pushes (t.dispatchMessage 1 m [7, 8]).2).Nodup ∧
    ∀ ep id, (ep, id) ∈ pushes (t.dispatchMessage 1 m [7, 8]).2 ↔
        id = m.id ∧ (ep, true) ∈ (t.dispatchMessage 1 m [7, 8]).1 :=
  ⟨by decide, dispatchMessage_accounts 1 _ _ (by decide)⟩

end TopicData

/-! ## An endpoint that goes offline -/

/-- Endpoint 20, hosted on node 2, takes an Online message on node 1; it goes offline, and an
ack for the message polls it again. Its row stays `Unsent`: the poll dispatches to it, and the
dispatch gives no result for an endpoint without a route. -/
theorem offline_row_stays_unsent :
    ∃ r fx, Replica.run id (.new 1 ⟨⟨[]⟩, none⟩)
        [(⟨0, .id⟩, .apply (.endpointOnline 20 [⟨[.literal "s"]⟩] 2)),
          (⟨0, .id⟩, .apply (.delegateMessage ⟨⟨1, .processed, .online, [⟨["s"]⟩]⟩⟩)),
          (⟨0, .id⟩, .apply (.endpointOffline 20)),
          (⟨0, .id⟩, .apply (.messageStateUpdate ⟨1, []⟩))] = .ok (r, fx) ∧
      (r.topic.queue.get? 1).map (·.waitAck.status.lookup 20) = some (some .unsent) ∧
      r.topic.dispatchMessage 1 ⟨⟨1, .processed, .online, [⟨["s"]⟩]⟩⟩ [20] = ([], []) :=
  ⟨_, _, rfl, by decide, rfl⟩

/-! ## Repeated and reordered pushes -/

/-- A node hosts endpoint 30, already online without interests, and a Durable backlog of
messages 1 and 2 waits for endpoint 20 of node 2; a second `EndpointOnline` gives 30 the
backlog's subject, and the re-poll in reversed hash order pushes 2 before 1. -/
def backlogRun : List (Env × Event) :=
  [(⟨0, .id⟩, .createEndpoint 30), (⟨0, .id⟩, .apply (.endpointOnline 30 [] 1)),
    (⟨0, .id⟩, .createEndpointDone 30 true),
    (⟨0, .id⟩, .apply (.endpointOnline 20 [⟨[.literal "s"]⟩] 2)),
    (⟨0, .id⟩, .apply (.delegateMessage ⟨⟨1, .processed, .durable, [⟨["s"]⟩]⟩⟩)),
    (⟨0, .id⟩, .apply (.delegateMessage ⟨⟨2, .processed, .durable, [⟨["s"]⟩]⟩⟩)),
    (⟨0, .rev⟩, .apply (.endpointOnline 30 [⟨[.literal "s"]⟩] 1))]

/-- Node 1 pushes message 3 to its endpoint 7 and then installs the snapshot of node 2, which
applied the same entries and one more: node 2's row for 7 is still `Unsent`, and the install's
poll pushes message 3 to 7 again. On the backlog run, the re-poll in reversed hash order pushes
message 2 to endpoint 30 before message 1. -/
theorem pushes_repeat_and_reorder :
    (∃ r₂ fx₂ r₁ fx₁, Replica.run id (.new 2 ⟨⟨[]⟩, none⟩) node2Run = .ok (r₂, fx₂) ∧
      Replica.exec id (.new 1 ⟨⟨[]⟩, none⟩) (node1Inputs (r₂.topic.snapshot .id)) =
        .ok (r₁, fx₁) ∧
      pushes fx₁ = [(7, 3), (7, 3)]) ∧
    ∃ r fx, Replica.run id (.new 1 ⟨⟨[]⟩, none⟩) backlogRun = .ok (r, fx) ∧
      pushes fx = [(30, 2), (30, 1)] :=
  ⟨⟨_, _, _, _, rfl, rfl, by decide⟩, ⟨_, _, rfl, by decide⟩⟩

/-- A Durable message waits for endpoint 20 of node 2 when node 1 creates endpoint 30 with the
same interest: while the `EndpointOnline` of 30 is applied, the call has not yet inserted 30
into `local_endpoints`, so the backlog is recorded `Unreachable` at 30 and nothing is pushed,
though the endpoint is alive and not deleted. -/
theorem backlog_unreachable_on_create :
    ∃ r fx, Replica.run id (.new 1 ⟨⟨[]⟩, none⟩)
        [(⟨0, .id⟩, .apply (.endpointOnline 20 [⟨[.literal "s"]⟩] 2)),
          (⟨0, .id⟩, .apply (.delegateMessage ⟨⟨1, .processed, .durable, [⟨["s"]⟩]⟩⟩)),
          (⟨0, .id⟩, .createEndpoint 30),
          (⟨0, .id⟩, .apply (.endpointOnline 30 [⟨[.literal "s"]⟩] 1))] = .ok (r, fx) ∧
      30 ∈ r.creating ∧
      r.topic.queue.holdMessages.map (·.waitAck.status.lookup 30) = [some .unreachable] ∧
      pushes fx = [] :=
  ⟨_, _, rfl, by decide, by decide, rfl⟩

end AsteroidMq
