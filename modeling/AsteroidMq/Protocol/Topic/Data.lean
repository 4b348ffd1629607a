import AsteroidMq.Protocol.Topic.Code
import AsteroidMq.Protocol.Topic.HoldMessage

/-!
# Topic data, dispatch and `update_and_flush`

Reference: `src/src/protocol/topic.rs`.

`TopicData` holds one replica's view of a topic: the three endpoint tables, the message queue,
and the node-local map of attached endpoints. Everything that reads the wall clock or the
iteration order of a hash container takes it from an `Env`, since the program does not fix
either: `ep_online` stamps `TimestampSec::now()`, `WaitAck::new` stamps the admission second,
and a `HashSet` is walked in its hasher's order.

`poll_message`, `poll_all` and `flush` belong to `hold_message.rs` and are modelled from the
spec: a poll of a complete message reports `Ok` to its waiter and answers `Ready`; otherwise it
dispatches the message to every `Unsent` row and records `Ok` as `Sent` and `Err` as
`Unreachable`. A poll walks the `Unsent` rows in ascending order: each row is written from its
own dispatch result, so the order shows only in the order of the pushes.
-/

namespace AsteroidMq

/-- Modelled from the spec: `TopicOverflowPolicy`. -/
inductive TopicOverflowPolicy
  | rejectNew
  | dropOld
  deriving DecidableEq, Repr

/-- Modelled from the spec: `TopicOverflowConfig`; `size` is a `NonZeroU32`. -/
structure TopicOverflowConfig where
  size : UInt32
  size_ne_zero : size ≠ 0
  policy : TopicOverflowPolicy
  deriving DecidableEq

theorem TopicOverflowConfig.size_pos (oc : TopicOverflowConfig) : 0 < oc.size.toNat :=
  Nat.pos_of_ne_zero fun h => oc.size_ne_zero (UInt32.eq_of_val_eq (Fin.ext h))

/-- Modelled from the spec: the fields of `TopicConfig` that the topic reads. -/
structure TopicConfig where
  code : TopicCode
  overflowConfig : Option TopicOverflowConfig
  deriving DecidableEq

/-- `TopicData`. `local_endpoints` is node-local: the weak references of the endpoints attached
to this node. -/
structure TopicData where
  config : TopicConfig
  localEndpoints : Finmap fun _ : EndpointAddr => LocalEndpointRef
  epRoutingTable : Finmap fun _ : EndpointAddr => NodeId
  epInterestMap : InterestMap
  epLatestActive : Finmap fun _ : EndpointAddr => TimestampSec
  queue : MessageQueue
  deriving DecidableEq

/-- The iteration order of a hash container at one use: any permutation of its elements. -/
structure IterOrder (α : Type) where
  arrange : List α → List α
  perm : ∀ l, List.Perm (arrange l) l

/-- The order in which the elements were given. -/
def IterOrder.id {α : Type} : IterOrder α :=
  ⟨fun l => l, List.Perm.refl⟩

/-- The reverse of the order in which the elements were given. -/
def IterOrder.rev {α : Type} : IterOrder α :=
  ⟨List.reverse, List.reverse_perm⟩

/-- The iteration order of a hash set at one use: a list of its elements, each once. -/
structure SetOrder (α : Type) where
  toList : Finset α → List α
  perm : ∀ s, (toList s : Multiset α) = s.val

@[simp] theorem SetOrder.mem_toList {α : Type} (so : SetOrder α) (s : Finset α) (a : α) :
    a ∈ so.toList s ↔ a ∈ s := by
  rw [← Multiset.mem_coe, so.perm, Finset.mem_val]

@[simp] theorem SetOrder.toFinset_toList {α : Type} [DecidableEq α] (so : SetOrder α)
    (s : Finset α) : (so.toList s).toFinset = s :=
  Finset.ext fun a => by simp

/-- What a replica reads that a log entry does not carry: its clock and its hashers' order. -/
structure Env where
  now : TimestampSec
  order : IterOrder ℕ

namespace TopicData

/-- `TopicData::new`: empty tables and an empty queue. -/
def new (config : TopicConfig) : TopicData :=
  ⟨config, ∅, ∅, ∅, ∅, ∅⟩

/-- `TopicData::code`. -/
def code (t : TopicData) : TopicCode :=
  t.config.code

/-- `TopicData::collect_addr_by_subjects`: the union of `find` over the subjects. -/
def collectAddrBySubjects (t : TopicData) (subjects : List Subject) : Finset EndpointAddr :=
  subjects.foldl (fun acc s => acc ∪ t.epInterestMap.find s) ∅

/-- `TopicData::get_local_ep`. -/
def getLocalEp (t : TopicData) (ep : EndpointAddr) : Option LocalEndpointRef :=
  t.localEndpoints.lookup ep

/-- `TopicData::push_message_to_local_ep`: `true` for `Ok(())`, with the push into the mailbox. -/
def pushMessageToLocalEp (t : TopicData) (ep : EndpointAddr) (message : Message) :
    Bool × List Effect :=
  match t.getLocalEp ep with
  | some r => if r.alive then (true, [.push ep message]) else (false, [])
  | none => (false, [])

/-- `TopicData::resolve_node_ep_map`: the routed endpoints of `epList` grouped by host, each
group in list order; unrouted endpoints are dropped. -/
def resolveNodeEpMap (t : TopicData) (epList : List EndpointAddr) :
    Finmap fun _ : NodeId => List EndpointAddr :=
  epList.foldl (fun m ep =>
    match t.epRoutingTable.lookup ep with
    | some node => m.insert node ((m.lookup node).getD [] ++ [ep])
    | none => m) ∅

/-- `Topic::dispatch_message` on node `node`: push to each endpoint of this node's group. The
loop over the groups keeps only `self.node.is(node)`, so it reads that one group. -/
def dispatchMessage (node : NodeId) (t : TopicData) (message : Message)
    (epList : List EndpointAddr) : List (EndpointAddr × Bool) × List Effect :=
  let eps := ((t.resolveNodeEpMap epList).lookup node).getD []
  (eps.map fun ep => (ep, (t.pushMessageToLocalEp ep message).1),
    eps.flatMap fun ep => (t.pushMessageToLocalEp ep message).2)

/-- A node's group in `resolve_node_ep_map` is the endpoints of the list routed to it, in list
order. -/
theorem getD_lookup_resolveNodeEpMap (t : TopicData) (epList : List EndpointAddr)
    (node : NodeId) : ((t.resolveNodeEpMap epList).lookup node).getD [] =
      epList.filter fun ep => t.epRoutingTable.lookup ep = some node := by
  suffices ∀ m : Finmap (fun _ : NodeId => List EndpointAddr),
      ((epList.foldl (fun m ep =>
        match t.epRoutingTable.lookup ep with
        | some node => m.insert node ((m.lookup node).getD [] ++ [ep])
        | none => m) m).lookup node).getD [] =
        (m.lookup node).getD [] ++ epList.filter fun ep => t.epRoutingTable.lookup ep = some node
    from this ∅
  induction epList with
  | nil => simp
  | cons ep eps ih =>
    intro m
    rw [List.foldl_cons, ih, List.filter_cons]
    rcases hr : t.epRoutingTable.lookup ep with _ | n
    · simp
    · by_cases hn : n = node
      · subst hn; simp
      · simp [Finmap.lookup_insert_of_ne _ (Ne.symm hn), hn]

/-- `dispatch_message` pushes to the endpoints of the list routed to this node, in list order,
and reports each push. -/
theorem dispatchMessage_eq (node : NodeId) (t : TopicData) (message : Message)
    (epList : List EndpointAddr) :
    t.dispatchMessage node message epList =
      let eps := epList.filter fun ep => t.epRoutingTable.lookup ep = some node
      (eps.map fun ep => (ep, (t.pushMessageToLocalEp ep message).1),
        eps.flatMap fun ep => (t.pushMessageToLocalEp ep message).2) := by
  rw [dispatchMessage, getD_lookup_resolveNodeEpMap]

/-- Modelled from the spec: `MessageQueue::poll_message` with this topic as context. -/
def pollMessage (node : NodeId) (t : TopicData) (id : MessageId) :
    TopicData × Option Poll × List Effect :=
  match t.queue.get? id with
  | none => (t, none, [])
  | some h =>
    if h.waitAck.isResolved then
      let r := t.queue.resolve id (.ok h.waitAck.status)
      ({ t with queue := r.1 }, some .ready, r.2)
    else
      let d := t.dispatchMessage node h.message (enumerate h.waitAck.unsentEndpoints)
      ({ t with queue := { t.queue with
          holdMessages := modifyHold id (·.applyResults d.1) t.queue.holdMessages } },
        some .pending, d.2)

/-- Modelled from the spec: `MessageQueue::poll_all`, a poll of every hold message. -/
def pollAll (node : NodeId) (t : TopicData) : TopicData × List Effect :=
  (t.queue.holdMessages.map (·.id)).foldl
    (fun acc id => let r := pollMessage node acc.1 id; (r.1, acc.2 ++ r.2.2)) (t, [])

/-- The `flush` of the queue, on the topic. -/
def flush (t : TopicData) : TopicData × List Effect :=
  let f := t.queue.flush
  ({ t with queue := f.1 }, f.2)

/-- `TopicData::update_and_flush`: apply the acks, poll the message, flush if it is ready. -/
def updateAndFlush (node : NodeId) (t : TopicData) (update : MessageStateUpdate) :
    TopicData × List Effect :=
  let p := pollMessage node { t with queue := t.queue.updateAcks update } update.messageId
  if p.2.1 = some .ready then
    let f := p.1.flush
    (f.1, p.2.2 ++ f.2)
  else (p.1, p.2.2)

/-! ## What each step touches -/

/-- `t'` differs from `t` at most in its queue. -/
def QueueOnly (t t' : TopicData) : Prop :=
  { t with queue := t'.queue } = t'

theorem QueueOnly.refl (t : TopicData) : QueueOnly t t := rfl

theorem queueOnly_withQueue (t : TopicData) (q : MessageQueue) :
    QueueOnly t { t with queue := q } := rfl

theorem QueueOnly.trans {t t₁ t₂ : TopicData} (h₁ : QueueOnly t t₁) (h₂ : QueueOnly t₁ t₂) :
    QueueOnly t t₂ := by
  rw [← h₂, ← h₁]; rfl

theorem QueueOnly.config_eq {t t' : TopicData} (h : QueueOnly t t') : t'.config = t.config := by
  rw [← h]

theorem QueueOnly.localEndpoints_eq {t t' : TopicData} (h : QueueOnly t t') :
    t'.localEndpoints = t.localEndpoints := by
  rw [← h]

theorem QueueOnly.epRoutingTable_eq {t t' : TopicData} (h : QueueOnly t t') :
    t'.epRoutingTable = t.epRoutingTable := by
  rw [← h]

theorem QueueOnly.epInterestMap_eq {t t' : TopicData} (h : QueueOnly t t') :
    t'.epInterestMap = t.epInterestMap := by
  rw [← h]

theorem QueueOnly.epLatestActive_eq {t t' : TopicData} (h : QueueOnly t t') :
    t'.epLatestActive = t.epLatestActive := by
  rw [← h]

theorem queueOnly_pollMessage (node : NodeId) (t : TopicData) (id : MessageId) :
    QueueOnly t (pollMessage node t id).1 := by
  unfold pollMessage
  split
  · exact .refl t
  · split <;> exact queueOnly_withQueue _ _

theorem queueOnly_flush (t : TopicData) : QueueOnly t t.flush.1 :=
  queueOnly_withQueue _ _

theorem queueOnly_updateAndFlush (node : NodeId) (t : TopicData) (u : MessageStateUpdate) :
    QueueOnly t (updateAndFlush node t u).1 := by
  have h := (queueOnly_withQueue t (t.queue.updateAcks u)).trans
    (queueOnly_pollMessage node _ u.messageId)
  dsimp only [updateAndFlush]
  split
  · exact h.trans (queueOnly_flush _)
  · exact h

/-- `t'` differs from `t` at most in its three endpoint tables. -/
def TablesOnly (t t' : TopicData) : Prop :=
  { t with
    epRoutingTable := t'.epRoutingTable
    epInterestMap := t'.epInterestMap
    epLatestActive := t'.epLatestActive } = t'

theorem TablesOnly.refl (t : TopicData) : TablesOnly t t := rfl

theorem TablesOnly.trans {t t₁ t₂ : TopicData} (h₁ : TablesOnly t t₁) (h₂ : TablesOnly t₁ t₂) :
    TablesOnly t t₂ := by
  rw [← h₂, ← h₁]; rfl

theorem TablesOnly.config_eq {t t' : TopicData} (h : TablesOnly t t') : t'.config = t.config := by
  rw [← h]

theorem TablesOnly.queue_eq {t t' : TopicData} (h : TablesOnly t t') : t'.queue = t.queue := by
  rw [← h]

theorem TablesOnly.localEndpoints_eq {t t' : TopicData} (h : TablesOnly t t') :
    t'.localEndpoints = t.localEndpoints := by
  rw [← h]

/-! ## Queue length -/

theorem len_pollMessage (node : NodeId) (t : TopicData) (id : MessageId) :
    (pollMessage node t id).1.queue.len = t.queue.len := by
  unfold pollMessage
  split
  · rfl
  · split <;> simp [MessageQueue.len]

theorem len_flush_le (t : TopicData) : t.flush.1.queue.len ≤ t.queue.len := by
  simpa [flush, MessageQueue.len] using List.Sublist.length_le (List.dropWhile_suffix _).sublist

theorem len_updateAndFlush_le (node : NodeId) (t : TopicData) (u : MessageStateUpdate) :
    (updateAndFlush node t u).1.queue.len ≤ t.queue.len := by
  have h := len_pollMessage node { t with queue := t.queue.updateAcks u } u.messageId
  rw [MessageQueue.len_updateAcks] at h
  dsimp only [updateAndFlush]
  split
  · exact (len_flush_le _).trans h.le
  · exact h.le

end TopicData

end AsteroidMq
