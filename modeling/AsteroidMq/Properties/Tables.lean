import AsteroidMq.Protocol.Node

/-!
# The endpoint tables and the log

Reference: `src/src/protocol/topic.rs`, `ep_online`, `ep_offline`, `update_ep_interest`,
`load_ep_sync` and `Topic::delete_endpoint`.

`EndpointTables` is what the log determines of a replica's endpoint tables: the routing table,
the interests, and which endpoints have an activity record. `EndpointTables.apply` is a table
machine that reads nothing but the entry, and `TopicData.apply_tables` shows that the applier
refines it on every node, clock and hash order: an entry panics exactly when the machine says
so and otherwise moves the tables as the machine does. Between entries only `delete_endpoint`
and `load_ep_sync` write the tables, both node-local calls. A run without them keeps its tables
on the table machine of its log (`run_tables`), so two replicas of one log agree on them
(`tables_deterministic`).

The rest of the replicated state is not a function of the log (`replicas_diverge`): `ep_online`
stamps `TimestampSec::now()` into `ep_latest_active`, a poll records a dispatch by which
endpoints are local to the node, and `delete_endpoint` edits the tables outside the log.

The last section is the consistency of the tables. The routing table and the activity table
keep the same keys on every run (`keysAgree_run`), but `update_ep_interest` gives interests
to an endpoint that has no route (`setEpInterest_after_offline`).
-/

namespace AsteroidMq

theorem keys_finmap_insert {β : Type} (m : Finmap fun _ : ℕ => β) (a : ℕ) (b : β) :
    (m.insert a b).keys = Insert.insert a m.keys :=
  Finset.ext fun x => by simp [Finmap.mem_keys, Finmap.mem_insert]

/-- What the log determines of a replica's endpoint tables: the routing table, the interests,
and which endpoints have an activity record. -/
structure EndpointTables where
  routing : Finmap fun _ : EndpointAddr => NodeId
  interests : InterestMap
  active : Finset EndpointAddr
  deriving DecidableEq

/-- A replica's endpoint tables, its activity timestamps forgotten down to their keys. -/
def TopicData.tables (t : TopicData) : EndpointTables :=
  ⟨t.epRoutingTable, t.epInterestMap, t.epLatestActive.keys⟩

theorem TopicData.QueueOnly.tables_eq {t t' : TopicData} (h : TopicData.QueueOnly t t') :
    t'.tables = t.tables := by
  rw [← h]; rfl

/-- The panic an entry raises, the same on every replica: the `unimplemented!` of the
`Available` kind. -/
def LogOp.panic? : LogOp → Option String
  | .delegateMessage m =>
    if m.header.targetKind = .available then some "available kind is not supported" else none
  | _ => none

namespace EndpointTables

/-- The tables after an entry that does not panic. -/
def apply (tb : EndpointTables) : LogOp → EndpointTables
  | .endpointOnline e is host =>
    ⟨tb.routing.insert e host, tb.interests.insertAll is e, Insert.insert e tb.active⟩
  | .endpointOffline e => ⟨tb.routing.erase e, tb.interests.delete e, tb.active.erase e⟩
  | .setEpInterest e is => { tb with interests := (tb.interests.delete e).insertAll is e }
  | .delegateMessage _ | .messageStateUpdate _ => tb

/-- The tables after a log, or the log's first panic. -/
def run (tb : EndpointTables) : List LogOp → Except String EndpointTables
  | [] => .ok tb
  | op :: ops =>
    match op.panic? with
    | some e => .error e
    | none => (tb.apply op).run ops

end EndpointTables

/-! ## The applier refines the table machine -/

/-- On every node, clock and hash order, an entry panics exactly when the table machine says
so, and otherwise moves the tables as the machine does. -/
theorem TopicData.apply_tables (hash64 : ℕ → ℕ) (node : NodeId) (env : Env) (t : TopicData)
    (op : LogOp) :
    (t.apply hash64 node env op).map (·.1.tables) =
      match op.panic? with
      | some e => .error e
      | none => .ok (t.tables.apply op) := by
  cases op with
  | delegateMessage m =>
    simp only [TopicData.apply, LogOp.panic?, EndpointTables.apply]
    rcases h : t.holdNewMessage hash64 node env m with e | r
    · obtain ⟨hk, rfl⟩ := holdNewMessage_eq_error.mp h
      simp [hk, Except.map]
    · have hk : m.header.targetKind ≠ .available := fun hk => by
        rw [holdNewMessage_eq_error.mpr ⟨hk, rfl⟩] at h; cases h
      simp [hk, Except.map, (queueOnly_holdNewMessage h).tables_eq]
  | endpointOnline e is host =>
    obtain ⟨q, hq⟩ := epOnline_eq node env t e is host
    simp [TopicData.apply, Except.map, LogOp.panic?, EndpointTables.apply, hq, tables,
      keys_finmap_insert]
  | endpointOffline e =>
    simp [TopicData.apply, Except.map, LogOp.panic?, EndpointTables.apply, epOffline, tables,
      Finmap.keys_erase]
  | setEpInterest e is => rfl
  | messageStateUpdate u =>
    simp [TopicData.apply, Except.map, LogOp.panic?, EndpointTables.apply,
      (queueOnly_updateAndFlush node t u).tables_eq]

/-- The log entries of a list of events, in order. -/
def logOf (evs : List (Env × Event)) : List LogOp :=
  evs.filterMap (·.2.logOp?)

namespace Replica

/-- What a step does to the tables: an entry moves them as the table machine does, a
`delete_endpoint` or a `load_ep_sync` runs its own code, and any other step keeps them. -/
theorem step_tables {hash64 : ℕ → ℕ} {env : Env} {r r' : Replica} {ev : Event}
    {fx : List Effect} (h : step hash64 env r ev = .ok (r', fx)) :
    (∃ op, ev = .apply op ∧ op.panic? = none ∧ r'.topic.tables = r.topic.tables.apply op) ∨
    (∃ a, ev = .deleteEndpoint a ∧ r'.topic = r.topic.deleteEndpoint a) ∨
    (∃ infos, ev = .loadEpSync infos ∧ r'.topic = r.topic.loadEpSync infos) ∨
    (ev.logOp? = none ∧ ev.writesTables = false ∧ r'.topic.tables = r.topic.tables) := by
  rcases step_topic h with ⟨op, rfl, hs⟩ | ⟨m, rfl, hq, -⟩ | ⟨a, rfl, hq, -⟩ |
    ⟨infos, rfl, hq, -⟩ | ⟨hl, hw, -, -, ⟨le, hq⟩, -⟩
  · have ha := TopicData.apply_tables hash64 r.node env r.topic op
    rw [hs] at ha
    cases hp : op.panic? <;> simp only [hp, Except.map, Except.ok.injEq, reduceCtorEq] at ha
    exact .inl ⟨op, rfl, hp, ha⟩
  · exact .inr (.inr (.inr ⟨rfl, rfl, by rw [hq]; rfl⟩))
  · exact .inr (.inl ⟨a, rfl, hq⟩)
  · exact .inr (.inr (.inl ⟨infos, rfl, hq⟩))
  · exact .inr (.inr (.inr ⟨hl, hw, by rw [hq]; rfl⟩))

/-- A step fails only at an entry's panic. -/
theorem step_error {hash64 : ℕ → ℕ} {env : Env} {r : Replica} {ev : Event} {e : String}
    (h : step hash64 env r ev = .error e) : ∃ op, ev = .apply op ∧ op.panic? = some e := by
  cases ev with
  | apply op =>
    have ha := TopicData.apply_tables hash64 r.node env r.topic op
    rcases hs : r.topic.apply hash64 r.node env op with e' | ⟨t', fx'⟩
    · simp only [step, hs, Except.map, Except.error.injEq] at h
      subst h
      rw [hs] at ha
      cases hp : op.panic? <;> simp_all [Except.map]
    · simp [step, hs, Except.map] at h
  | _ => simp [step] at h

/-- A run that neither deletes an endpoint nor loads an endpoint sync keeps its tables on the
table machine of its log. -/
theorem run_tables (hash64 : ℕ → ℕ) (r : Replica) (evs : List (Env × Event))
    (hw : ∀ p ∈ evs, p.2.writesTables = false) :
    (run hash64 r evs).map (·.1.topic.tables) = r.topic.tables.run (logOf evs) := by
  induction evs generalizing r with
  | nil => rfl
  | cons p evs ih =>
    obtain ⟨env, ev⟩ := p
    have hw' : ∀ q ∈ evs, q.2.writesTables = false := fun q hq => hw q (List.mem_cons_of_mem _ hq)
    rcases hs : step hash64 env r ev with e | ⟨r', fx⟩
    · obtain ⟨op, rfl, hp⟩ := step_error hs
      simp [run_cons_error hs, logOf, Event.logOp?, EndpointTables.run, hp, Except.map]
    · rw [run_cons_map_fst (·.topic.tables) hs, ih _ hw']
      rcases step_tables hs with ⟨op, rfl, hp, ht⟩ | ⟨a, rfl, -⟩ | ⟨infos, rfl, -⟩ | ⟨hl, -, ht⟩
      · simp [logOf, Event.logOp?, EndpointTables.run, hp, ht]
      · cases hw _ (List.mem_cons_self _ _)
      · cases hw _ (List.mem_cons_self _ _)
      · simp [logOf, hl, ht]

end Replica

/-- Two replicas whose endpoint tables start equal and that apply the same log end with equal
tables, or stop at the same panic. Their nodes, clocks, hash orders and local endpoints may
differ, and so may the local `send_message` and `create_endpoint` calls between the entries,
as long as neither calls `delete_endpoint` or `load_ep_sync`. -/
theorem tables_deterministic (hash64 : ℕ → ℕ) {r₁ r₂ : Replica}
    {evs₁ evs₂ : List (Env × Event)} (h0 : r₁.topic.tables = r₂.topic.tables)
    (hlog : logOf evs₁ = logOf evs₂) (hw₁ : ∀ p ∈ evs₁, p.2.writesTables = false)
    (hw₂ : ∀ p ∈ evs₂, p.2.writesTables = false) :
    (Replica.run hash64 r₁ evs₁).map (·.1.topic.tables) =
      (Replica.run hash64 r₂ evs₂).map (·.1.topic.tables) := by
  rw [Replica.run_tables hash64 r₁ evs₁ hw₁, Replica.run_tables hash64 r₂ evs₂ hw₂, h0, hlog]

/-- Node 1 creates endpoint 7 around its `EndpointOnline`; node 2 only applies the entry, at
another second and in another hash order. -/
theorem tables_deterministic_twoNodes :
    (Replica.run id (.new 1 ⟨⟨[]⟩, none⟩)
        [(⟨5, .id⟩, .createEndpoint 7), (⟨5, .id⟩, .apply (.endpointOnline 7 [] 1)),
          (⟨5, .id⟩, .createEndpointDone 7 true)]).map (·.1.topic.tables) =
      (Replica.run id (.new 2 ⟨⟨[]⟩, none⟩)
        [(⟨9, .rev⟩, .apply (.endpointOnline 7 [] 1))]).map (·.1.topic.tables) :=
  tables_deterministic id rfl rfl (by decide) (by decide)

/-- Three ways two replicas of one log part: a clock read by `ep_online`, an endpoint local to
one node only, and a `delete_endpoint` call. -/
theorem replicas_diverge :
    (∃ r₁ r₂ fx₁ fx₂,
      Replica.run id (.new 1 ⟨⟨[]⟩, none⟩) [(⟨1, .id⟩, .apply (.endpointOnline 7 [] 1))] =
        .ok (r₁, fx₁) ∧
      Replica.run id (.new 1 ⟨⟨[]⟩, none⟩) [(⟨2, .id⟩, .apply (.endpointOnline 7 [] 1))] =
        .ok (r₂, fx₂) ∧
      r₁.topic.epLatestActive ≠ r₂.topic.epLatestActive) ∧
    (∃ r₁ r₂ fx₁ fx₂,
      Replica.run id (.new 1 ⟨⟨[]⟩, none⟩)
        [(⟨0, .id⟩, .createEndpoint 7),
          (⟨0, .id⟩, .apply (.endpointOnline 7 [⟨[.literal "s"]⟩] 1)),
          (⟨0, .id⟩, .createEndpointDone 7 true),
          (⟨0, .id⟩, .apply (.delegateMessage ⟨⟨3, .sent, .online, [⟨["s"]⟩]⟩⟩))] =
        .ok (r₁, fx₁) ∧
      Replica.run id (.new 2 ⟨⟨[]⟩, none⟩)
        [(⟨0, .id⟩, .apply (.endpointOnline 7 [⟨[.literal "s"]⟩] 1)),
          (⟨0, .id⟩, .apply (.delegateMessage ⟨⟨3, .sent, .online, [⟨["s"]⟩]⟩⟩))] =
        .ok (r₂, fx₂) ∧
      r₁.topic.queue.holdMessages ≠ r₂.topic.queue.holdMessages) ∧
    (∃ r₁ r₂ fx₁ fx₂,
      Replica.run id (.new 1 ⟨⟨[]⟩, none⟩)
        [(⟨0, .id⟩, .apply (.endpointOnline 7 [] 1)), (⟨0, .id⟩, .deleteEndpoint 7)] =
        .ok (r₁, fx₁) ∧
      Replica.run id (.new 2 ⟨⟨[]⟩, none⟩) [(⟨0, .id⟩, .apply (.endpointOnline 7 [] 1))] =
        .ok (r₂, fx₂) ∧
      r₁.topic.epRoutingTable ≠ r₂.topic.epRoutingTable) :=
  ⟨⟨_, _, _, _, rfl, rfl, by decide⟩, ⟨_, _, _, _, rfl, rfl, by decide⟩,
    ⟨_, _, _, _, rfl, rfl, by decide⟩⟩

/-! ## Consistency of the tables -/

/-- The routing table and the activity table have the same keys. -/
def EndpointTables.KeysAgree (tb : EndpointTables) : Prop :=
  tb.routing.keys = tb.active

theorem EndpointTables.keysAgree_apply {tb : EndpointTables} (h : tb.KeysAgree) (op : LogOp) :
    (tb.apply op).KeysAgree := by
  cases op <;> simp_all [EndpointTables.KeysAgree, EndpointTables.apply, keys_finmap_insert,
    Finmap.keys_erase]

theorem TopicData.keysAgree_loadEpSync {t : TopicData} (h : t.tables.KeysAgree)
    (infos : List EpInfo) : (t.loadEpSync infos).tables.KeysAgree := by
  induction infos generalizing t with
  | nil => exact h
  | cons ep eps ih =>
    have hl : (t.loadEp ep).tables.KeysAgree := by
      simp_all [EndpointTables.KeysAgree, loadEp, tables, keys_finmap_insert]
    apply ih
    dsimp only
    split
    · split
      · exact h
      · exact hl
    · exact hl

/-- Every step keeps the keys of the routing and the activity tables equal. -/
theorem Replica.keysAgree_step {hash64 : ℕ → ℕ} {env : Env} {r r' : Replica} {ev : Event}
    {fx : List Effect} (ht : r.topic.tables.KeysAgree)
    (h : step hash64 env r ev = .ok (r', fx)) : r'.topic.tables.KeysAgree := by
  rcases step_tables h with ⟨op, -, -, h'⟩ | ⟨a, -, h'⟩ | ⟨infos, -, h'⟩ | ⟨-, -, h'⟩
  · exact h' ▸ EndpointTables.keysAgree_apply ht op
  · simp_all [EndpointTables.KeysAgree, TopicData.deleteEndpoint, TopicData.tables,
      Finmap.keys_erase]
  · exact h' ▸ TopicData.keysAgree_loadEpSync ht infos
  · exact h' ▸ ht

/-- `SetEpInterest` after `EndpointOffline`: the endpoint is found for a subject but has no
route. -/
theorem setEpInterest_after_offline :
    ∃ r fx, Replica.run id (.new 1 ⟨⟨[]⟩, none⟩)
        [(⟨0, .id⟩, .apply (.endpointOnline 7 [⟨[.literal "s"]⟩] 1)),
          (⟨0, .id⟩, .apply (.endpointOffline 7)),
          (⟨0, .id⟩, .apply (.setEpInterest 7 [⟨[.literal "s"]⟩]))] = .ok (r, fx) ∧
      7 ∈ r.topic.epInterestMap.find ⟨["s"]⟩ ∧ 7 ∉ r.topic.epRoutingTable :=
  ⟨_, _, rfl, by decide, by decide⟩

end AsteroidMq
