import AsteroidMq.Protocol.Topic.Data

/-!
# Admission, endpoint lifecycle and the log applier

Reference: `src/src/protocol/topic.rs`, `hold_new_message`, `ep_online`, `ep_offline`,
`update_ep_interest`, `load_ep_sync` and `delete_endpoint`.

`topic.rs` has two copies of `hold_new_message`, on `Topic` and on `TopicData`; they differ only
in how they reach the waiter registry, so both are `holdNewMessage`. It panics in two places,
the `unimplemented!` of the `Available` kind and the `expect` of the `DropOld` eviction: the model
returns the panic's text as an `Except.error`. `crate::util::hash64` is not part of the sources
at hand and is taken as a parameter `hash64`, the same function on every node.

`LogOp` lists the entries of the replicated log that act on one topic, and `apply` is the
applier's dispatch on them.
-/

namespace AsteroidMq

namespace TopicData

/-! ## `hold_new_message` -/

/-- The `Push` arm's ring: the recipients in their `HashSet` order, keyed by `hash64` and
sorted stably by the key (`sort_by_key`). -/
def hashRing (hash64 : ℕ → ℕ) (env : Env) (epCollect : Finset EndpointAddr) :
    List (ℕ × EndpointAddr) :=
  ((env.order.arrange (enumerate epCollect)).map fun ep => (hash64 ep, ep)).insertionSort
    fun a b => a.1 ≤ b.1

/-- The match on the target kind: the recipient set, `ok none` when a `Push` message finds no
endpoint, `error` for the `unimplemented!` of `Available`. -/
def recipients (hash64 : ℕ → ℕ) (env : Env) (t : TopicData) (message : Message) :
    Except String (Option (Finset EndpointAddr)) :=
  match message.header.targetKind with
  | .durable | .online => .ok (some (t.collectAddrBySubjects message.header.subjects))
  | .available => .error "available kind is not supported"
  | .push =>
    let ring := hashRing hash64 env (t.collectAddrBySubjects message.header.subjects)
    if ring = [] then .ok none
    else .ok (some {(ring.getD (hash64 message.id % ring.length) (0, 0)).2})

/-- `queue.push(hold_message)` on the queue `q` left by the overflow block, then
`update_and_flush` of an empty update for the message. -/
def pushAndPoll (node : NodeId) (t : TopicData) (q : MessageQueue) (h : HoldMessage) :
    TopicData × List Effect :=
  updateAndFlush node { t with queue := q.push h } (.newEmpty h.id)

/-- The admission of a message with recipient set `epCollect`: the overflow block, the push and
the first poll. -/
def admitMessage (node : NodeId) (env : Env) (t : TopicData) (message : Message)
    (epCollect : Finset EndpointAddr) : Except String (TopicData × List Effect) :=
  let hold : HoldMessage := ⟨message, .new message.ackKind epCollect env.now⟩
  match t.config.overflowConfig with
  | some oc =>
    if oc.size.toNat ≤ t.queue.len then
      match oc.policy with
      | .rejectNew =>
        let r := t.queue.resolve message.id (.exception .overflow)
        .ok ({ t with queue := r.1 }, r.2)
      | .dropOld =>
        match t.queue.pop with
        | some (old, q) =>
          let r := q.resolve old.id (.exception .overflow)
          let p := pushAndPoll node t r.1 hold
          .ok (p.1, r.2 ++ p.2)
        | none => .error "queue at least one element"
    else .ok (pushAndPoll node t t.queue hold)
  | none => .ok (pushAndPoll node t t.queue hold)

/-- `TopicData::hold_new_message`. -/
def holdNewMessage (hash64 : ℕ → ℕ) (node : NodeId) (env : Env) (t : TopicData)
    (message : Message) : Except String (TopicData × List Effect) :=
  match recipients hash64 env t message with
  | .error e => .error e
  | .ok none =>
    let r := t.queue.resolve message.id (.exception .noAvailableTarget)
    .ok ({ t with queue := r.1 }, r.2)
  | .ok (some epCollect) => t.admitMessage node env message epCollect

/-! ## Endpoint lifecycle -/

/-- `update_and_flush` of an empty update for each id in turn. -/
def updateAndFlushEach (node : NodeId) : TopicData → List MessageId → TopicData × List Effect
  | t, [] => (t, [])
  | t, id :: ids =>
    let r := updateAndFlush node t (.newEmpty id)
    let r' := updateAndFlushEach node r.1 ids
    (r'.1, r.2 ++ r'.2)

/-- The test of `ep_online`'s loop: a Durable hold message with no row for the endpoint, one of
whose subjects the endpoint's interests now match. -/
def needsRow (m : InterestMap) (endpoint : EndpointAddr) (h : HoldMessage) : Bool :=
  decide (h.message.header.targetKind = .durable ∧ endpoint ∉ h.waitAck.status ∧
    ∃ s ∈ h.message.header.subjects, endpoint ∈ m.find s)

/-- `TopicData::ep_online`: record the endpoint in the three tables, give every matching Durable
hold message an `Unsent` row for it, and re-poll those messages in `HashSet` order. -/
def epOnline (node : NodeId) (env : Env) (t : TopicData) (endpoint : EndpointAddr)
    (interests : List Interest) (host : NodeId) : TopicData × List Effect :=
  let interestMap := t.epInterestMap.insertAll interests endpoint
  let holds := t.queue.holdMessages
  let messageNeedPoll := ((holds.filter (needsRow interestMap endpoint)).map (·.id)).dedup
  let t₁ : TopicData :=
    { t with
      epLatestActive := t.epLatestActive.insert endpoint env.now
      epRoutingTable := t.epRoutingTable.insert endpoint host
      epInterestMap := interestMap
      queue := { t.queue with
        holdMessages := holds.map fun h =>
          if needsRow interestMap endpoint h then h.addUnsent endpoint else h } }
  updateAndFlushEach node t₁ (env.order.arrange messageNeedPoll)

/-- `TopicData::ep_offline`: remove the endpoint from the three tables. -/
def epOffline (t : TopicData) (ep : EndpointAddr) : TopicData :=
  { t with
    epLatestActive := t.epLatestActive.erase ep
    epRoutingTable := t.epRoutingTable.erase ep
    epInterestMap := t.epInterestMap.delete ep }

/-- `TopicData::update_ep_interest`: replace the endpoint's interests. -/
def updateEpInterest (t : TopicData) (ep : EndpointAddr) (interests : List Interest) :
    TopicData :=
  { t with epInterestMap := (t.epInterestMap.delete ep).insertAll interests ep }

/-- `TopicData::get_ep_sync`: a row for each routed endpoint that has an activity record, in the
routing table's iteration order, with its interests in their set's iteration order. -/
def getEpSync (t : TopicData) (order : IterOrder EndpointAddr) (setOrder : SetOrder Interest) :
    List EpInfo :=
  (order.arrange (enumerate t.epRoutingTable.keys)).filterMap fun ep =>
    match t.epRoutingTable.lookup ep, t.epLatestActive.lookup ep with
    | some host, some latestActive =>
      some ⟨ep, host, ((t.epInterestMap.interestOf ep).map setOrder.toList).getD [], latestActive⟩
    | _, _ => none

/-- A row of `get_ep_sync` is an endpoint's routing entry, activity record and interests. -/
theorem mem_getEpSync {t : TopicData} {order : IterOrder EndpointAddr}
    {setOrder : SetOrder Interest} {info : EpInfo} :
    info ∈ t.getEpSync order setOrder ↔
      t.epRoutingTable.lookup info.addr = some info.host ∧
      t.epLatestActive.lookup info.addr = some info.latestActive ∧
      info.interests = ((t.epInterestMap.interestOf info.addr).map setOrder.toList).getD [] := by
  simp only [getEpSync, List.mem_filterMap, (order.perm _).mem_iff, mem_enumerate, Finmap.mem_keys]
  constructor
  · rintro ⟨ep, -, h⟩
    split at h
    · next host la hr ha => cases h; exact ⟨hr, ha, rfl⟩
    · cases h
  · rintro ⟨hr, ha, hi⟩
    refine ⟨info.addr, Finmap.mem_of_lookup_eq_some hr, ?_⟩
    rw [hr, ha, ← hi]

/-- `get_ep_sync` gives each endpoint one row. -/
theorem nodup_getEpSync (t : TopicData) (order : IterOrder EndpointAddr)
    (setOrder : SetOrder Interest) : ((t.getEpSync order setOrder).map (·.addr)).Nodup := by
  rw [getEpSync, List.map_filterMap]
  refine ((order.perm _).nodup_iff.mpr (nodup_enumerate _)).filterMap fun a a' b ha ha' => ?_
  simp only [Option.mem_def, Option.map_eq_some'] at ha ha'
  obtain ⟨x, hx, rfl⟩ := ha
  obtain ⟨y, hy, hxy⟩ := ha'
  split at hx <;> split at hy <;> cases hx <;> cases hy
  exact hxy.symm

/-- One row of `load_ep_sync`: take the remote view of the endpoint. -/
def loadEp (t : TopicData) (ep : EpInfo) : TopicData :=
  { t with
    epLatestActive := t.epLatestActive.insert ep.addr ep.latestActive
    epRoutingTable := t.epRoutingTable.insert ep.addr ep.host
    epInterestMap := t.epInterestMap.insertAll ep.interests ep.addr }

/-- `TopicData::load_ep_sync`: skip a row whose local record is later, take it otherwise. -/
def loadEpSync (t : TopicData) (infos : List EpInfo) : TopicData :=
  infos.foldl (fun t ep =>
    match t.epLatestActive.lookup ep.addr with
    | some existed => if ep.latestActive < existed then t else t.loadEp ep
    | none => t.loadEp ep) t

/-- The test of `load_ep_sync`'s `continue`: the local activity record is later than the row's. -/
def skipsRow (t : TopicData) (ep : EpInfo) : Bool :=
  (t.epLatestActive.lookup ep.addr).any fun existed => ep.latestActive < existed

theorem loadEpSync_cons (t : TopicData) (ep : EpInfo) (eps : List EpInfo) :
    t.loadEpSync (ep :: eps) = (if t.skipsRow ep then t else t.loadEp ep).loadEpSync eps := by
  show loadEpSync _ eps = _
  rcases h : t.epLatestActive.lookup ep.addr with _ | e <;> simp [skipsRow, h]

/-- `Topic::delete_endpoint`: remove the endpoint from the three tables and from the local
endpoints. The `EpOffline` packets it then sends to the peers are outside the topic. -/
def deleteEndpoint (t : TopicData) (addr : EndpointAddr) : TopicData :=
  { t with
    localEndpoints := t.localEndpoints.erase addr
    epInterestMap := t.epInterestMap.delete addr
    epRoutingTable := t.epRoutingTable.erase addr
    epLatestActive := t.epLatestActive.erase addr }

/-! ## What each step touches -/

theorem queueOnly_pushAndPoll (node : NodeId) (t : TopicData) (q : MessageQueue)
    (h : HoldMessage) : QueueOnly t (pushAndPoll node t q h).1 :=
  (queueOnly_withQueue t _).trans (queueOnly_updateAndFlush _ _ _)

theorem len_pushAndPoll_le (node : NodeId) (t : TopicData) (q : MessageQueue) (h : HoldMessage) :
    (pushAndPoll node t q h).1.queue.len ≤ q.len + 1 :=
  (len_updateAndFlush_le node { t with queue := q.push h } _).trans (q.len_push_le h)

theorem queueOnly_updateAndFlushEach (node : NodeId) (t : TopicData) (ids : List MessageId) :
    QueueOnly t (updateAndFlushEach node t ids).1 := by
  induction ids generalizing t with
  | nil => exact .refl t
  | cons id ids ih => exact (queueOnly_updateAndFlush _ _ _).trans (ih _)

theorem len_updateAndFlushEach_le (node : NodeId) (t : TopicData) (ids : List MessageId) :
    (updateAndFlushEach node t ids).1.queue.len ≤ t.queue.len := by
  induction ids generalizing t with
  | nil => exact le_rfl
  | cons id ids ih => exact (ih _).trans (len_updateAndFlush_le _ _ _)

/-- What an admission does: on a full queue `RejectNew` reports `Overflow` to the new message's
waiter, and `DropOld` evicts the head with an `Overflow` report to its waiter and then pushes;
with room in the queue, or with no overflow size, the message is pushed. -/
theorem admitMessage_cases {node : NodeId} {env : Env} {t : TopicData} {message : Message}
    {epCollect : Finset EndpointAddr} {r : TopicData × List Effect}
    (h : t.admitMessage node env message epCollect = .ok r) :
    let hold : HoldMessage := ⟨message, .new message.ackKind epCollect env.now⟩
    r = ({ t with queue := (t.queue.resolve message.id (.exception .overflow)).1 },
      (t.queue.resolve message.id (.exception .overflow)).2) ∨
    (∃ old q, t.queue.pop = some (old, q) ∧
      r = ((pushAndPoll node t (q.resolve old.id (.exception .overflow)).1 hold).1,
        (q.resolve old.id (.exception .overflow)).2 ++
          (pushAndPoll node t (q.resolve old.id (.exception .overflow)).1 hold).2)) ∨
    ((∀ oc, t.config.overflowConfig = some oc → t.queue.len < oc.size.toNat) ∧
      r = pushAndPoll node t t.queue hold) := by
  unfold admitMessage at h
  split at h
  · rename_i oc hoc
    split at h
    · split at h
      · injection h with h; exact .inl h.symm
      · split at h
        · injection h with h
          rename_i old q hpop
          exact .inr (.inl ⟨old, q, hpop, h.symm⟩)
        · cases h
    · rename_i hroom
      injection h with h
      refine .inr (.inr ⟨fun oc' hoc' => ?_, h.symm⟩)
      rw [hoc, Option.some.injEq] at hoc'
      subst hoc'
      omega
  · rename_i hoc
    injection h with h
    exact .inr (.inr ⟨fun oc' hoc' => (by rw [hoc] at hoc'; cases hoc'), h.symm⟩)

theorem queueOnly_admitMessage {node : NodeId} {env : Env} {t : TopicData} {message : Message}
    {epCollect : Finset EndpointAddr} {r : TopicData × List Effect}
    (h : t.admitMessage node env message epCollect = .ok r) : QueueOnly t r.1 := by
  rcases admitMessage_cases h with rfl | ⟨old, q, -, rfl⟩ | ⟨-, rfl⟩
  · exact queueOnly_withQueue _ _
  · exact queueOnly_pushAndPoll _ _ _ _
  · exact queueOnly_pushAndPoll _ _ _ _

/-- The `expect` of the `DropOld` eviction never fails: a full queue has a head. -/
theorem admitMessage_ok (node : NodeId) (env : Env) (t : TopicData) (message : Message)
    (epCollect : Finset EndpointAddr) : ∃ r, t.admitMessage node env message epCollect = .ok r := by
  unfold admitMessage
  rcases t.config.overflowConfig with _ | oc
  · exact ⟨_, rfl⟩
  · dsimp only
    split_ifs with hfull
    · rcases oc.policy
      · exact ⟨_, rfl⟩
      · rcases hpop : t.queue.pop with _ | ⟨old, q⟩
        · rw [MessageQueue.pop_eq_none] at hpop
          simp [MessageQueue.len, hpop] at hfull
          exact absurd hfull oc.size_pos.ne'
        · exact ⟨_, rfl⟩
    · exact ⟨_, rfl⟩

theorem recipients_eq_error {hash64 : ℕ → ℕ} {env : Env} {t : TopicData} {message : Message}
    {e : String} : t.recipients hash64 env message = .error e ↔
      message.header.targetKind = .available ∧ e = "available kind is not supported" := by
  unfold recipients
  cases message.header.targetKind <;> simp only [reduceCtorEq, false_and, iff_false, true_and]
  · split_ifs <;> simp
  · rw [Except.error.injEq]; exact eq_comm

/-- `hold_new_message` stops only at the `unimplemented!` of the `Available` kind. -/
theorem holdNewMessage_eq_error {hash64 : ℕ → ℕ} {node : NodeId} {env : Env} {t : TopicData}
    {message : Message} {e : String} :
    t.holdNewMessage hash64 node env message = .error e ↔
      message.header.targetKind = .available ∧ e = "available kind is not supported" := by
  rw [← @recipients_eq_error hash64 env t message e]
  rcases hrec : recipients hash64 env t message with e' | _ | epCollect
  · simp [holdNewMessage, hrec]
  · simp [holdNewMessage, hrec]
  · obtain ⟨r, hr⟩ := admitMessage_ok node env t message epCollect
    simp [holdNewMessage, hrec, hr]

/-- What `hold_new_message` does when it does not panic: with no recipient it reports
`NoAvailableTarget` to the message's waiter, and otherwise it admits the message. -/
theorem holdNewMessage_cases {hash64 : ℕ → ℕ} {node : NodeId} {env : Env} {t : TopicData}
    {message : Message} {r : TopicData × List Effect}
    (h : t.holdNewMessage hash64 node env message = .ok r) :
    (t.recipients hash64 env message = .ok none ∧
      r = ({ t with queue := (t.queue.resolve message.id (.exception .noAvailableTarget)).1 },
        (t.queue.resolve message.id (.exception .noAvailableTarget)).2)) ∨
    (∃ epCollect, t.recipients hash64 env message = .ok (some epCollect) ∧
      t.admitMessage node env message epCollect = .ok r) := by
  rcases hr : t.recipients hash64 env message with e | _ | epCollect
  · simp [holdNewMessage, hr] at h
  · simp only [holdNewMessage, hr, Except.ok.injEq] at h
    exact .inl ⟨rfl, h.symm⟩
  · simp only [holdNewMessage, hr] at h
    exact .inr ⟨epCollect, rfl, h⟩

theorem queueOnly_holdNewMessage {hash64 : ℕ → ℕ} {node : NodeId} {env : Env}
    {t : TopicData} {message : Message} {r : TopicData × List Effect}
    (h : t.holdNewMessage hash64 node env message = .ok r) : QueueOnly t r.1 := by
  rcases holdNewMessage_cases h with ⟨-, rfl⟩ | ⟨_, -, h⟩
  · exact queueOnly_withQueue _ _
  · exact queueOnly_admitMessage h

/-- `ep_online` changes the three tables and the queue, nothing else. -/
theorem epOnline_eq (node : NodeId) (env : Env) (t : TopicData) (endpoint : EndpointAddr)
    (interests : List Interest) (host : NodeId) :
    ∃ q, (t.epOnline node env endpoint interests host).1 =
      { t with
        epLatestActive := t.epLatestActive.insert endpoint env.now
        epRoutingTable := t.epRoutingTable.insert endpoint host
        epInterestMap := t.epInterestMap.insertAll interests endpoint
        queue := q } :=
  ⟨_, (queueOnly_updateAndFlushEach _ _ _).symm⟩

theorem len_epOnline_le (node : NodeId) (env : Env) (t : TopicData) (endpoint : EndpointAddr)
    (interests : List Interest) (host : NodeId) :
    (t.epOnline node env endpoint interests host).1.queue.len ≤ t.queue.len := by
  refine (len_updateAndFlushEach_le _ _ _).trans ?_
  simp [MessageQueue.len]

theorem tablesOnly_epOffline (t : TopicData) (ep : EndpointAddr) : TablesOnly t (t.epOffline ep) :=
  rfl

theorem tablesOnly_updateEpInterest (t : TopicData) (ep : EndpointAddr)
    (interests : List Interest) : TablesOnly t (t.updateEpInterest ep interests) :=
  rfl

theorem tablesOnly_loadEpSync (t : TopicData) (infos : List EpInfo) :
    TablesOnly t (t.loadEpSync infos) := by
  induction infos generalizing t with
  | nil => exact .refl t
  | cons ep eps ih =>
    have h : TablesOnly t (match t.epLatestActive.lookup ep.addr with
        | some existed => if ep.latestActive < existed then t else t.loadEp ep
        | none => t.loadEp ep) := by
      split
      · split
        · exact .refl t
        · rfl
      · rfl
    exact h.trans (ih _)

end TopicData

/-! ## The log applier -/

/-- Modelled from the spec: the entries of the replicated log that act on one topic. -/
inductive LogOp
  | delegateMessage (message : Message)
  | endpointOnline (endpoint : EndpointAddr) (interests : List Interest) (host : NodeId)
  | endpointOffline (endpoint : EndpointAddr)
  | setEpInterest (endpoint : EndpointAddr) (interests : List Interest)
  | messageStateUpdate (update : MessageStateUpdate)

/-- The applier: each entry kind to its `TopicData` method, on node `node`. -/
def TopicData.apply (hash64 : ℕ → ℕ) (node : NodeId) (env : Env) (t : TopicData) :
    LogOp → Except String (TopicData × List Effect)
  | .delegateMessage m => t.holdNewMessage hash64 node env m
  | .endpointOnline e is host => .ok (t.epOnline node env e is host)
  | .endpointOffline e => .ok (t.epOffline e, [])
  | .setEpInterest e is => .ok (t.updateEpInterest e is, [])
  | .messageStateUpdate u => .ok (t.updateAndFlush node u)

/-- No entry changes the topic's config. -/
theorem TopicData.config_apply {hash64 : ℕ → ℕ} {node : NodeId} {env : Env} {t : TopicData}
    {op : LogOp} {r : TopicData × List Effect} (h : t.apply hash64 node env op = .ok r) :
    r.1.config = t.config := by
  cases op with
  | delegateMessage m => exact (queueOnly_holdNewMessage h).config_eq
  | endpointOnline e is host =>
    injection h with h; subst h
    obtain ⟨q, hq⟩ := epOnline_eq node env t e is host
    rw [hq]
  | messageStateUpdate u =>
    injection h with h; subst h
    exact (queueOnly_updateAndFlush node t u).config_eq
  | _ => injection h with h; subst h; rfl

end AsteroidMq
