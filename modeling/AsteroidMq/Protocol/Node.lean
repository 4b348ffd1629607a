import AsteroidMq.Protocol.Topic.Apply
import AsteroidMq.Protocol.Topic.Snapshot

/-!
# One node's copy of a topic

Reference: `src/src/protocol/topic.rs`, `Topic::send_message`, `Topic::create_endpoint`,
`Topic::delete_endpoint`.

A node runs the log applier and the topic's API calls. The calls `send_message` and
`create_endpoint` suspend at their commit: each is split at that point into the part that runs
before it and the part that runs when the commit returns. `Event` is one step of either the
applier or a call, `step` its effect, and `run` a whole interleaving, chosen freely: which
entries commit, in which order, and how the calls' parts interleave with the applier.

`send_message` registers its waiter (`wait_ack`) before proposing; a failed commit returns the
error through `?`. `create_endpoint` builds the `LocalEndpoint` (alive from then on), proposes
`EndpointOnline`, and inserts the endpoint into `local_endpoints` only once the commit returns.

A node that falls behind the log is handed a snapshot in place of the entries it missed, and
installs it with `Topic::apply_snapshot`. `Input` is a step or such an install, and `exec` a run
over both; `run` is a run of steps alone. Both feed the node its inputs one at a time (`feed`).

`step_topic` says once what a step can do to the topic, and `step_queue` what it does to the
queue; each invariant of a run is a step lemma from these and `run_invariant`.
-/

namespace AsteroidMq

/-- One node's copy of one topic, with the API calls suspended at a commit: the messages whose
`DelegateMessage` is in flight, and the endpoints whose `EndpointOnline` is. -/
structure Replica where
  node : NodeId
  topic : TopicData
  inFlight : List MessageId
  creating : Finset EndpointAddr

/-- One step of a node. -/
inductive Event
  /-- The applier applies a committed entry. -/
  | apply (op : LogOp)
  /-- `Topic::send_message` up to its commit: `wait_ack` and the proposal. -/
  | sendMessage (message : Message)
  /-- The commit of a `send_message` returns. -/
  | sendMessageDone (id : MessageId) (committed : Bool)
  /-- `Topic::create_endpoint` up to its commit: the new `LocalEndpoint` and the proposal. -/
  | createEndpoint (address : EndpointAddr)
  /-- The commit of a `create_endpoint` returns: on success the endpoint becomes local. -/
  | createEndpointDone (address : EndpointAddr) (committed : Bool)
  /-- `Topic::delete_endpoint`. -/
  | deleteEndpoint (address : EndpointAddr)
  /-- The owner drops a `LocalEndpoint`: its weak reference no longer upgrades. -/
  | dropEndpoint (address : EndpointAddr)
  /-- `TopicData::load_ep_sync` of a remote endpoint view. -/
  | loadEpSync (infos : List EpInfo)

/-- The message an event hands to the applier, if it is a `DelegateMessage` entry. -/
def Event.delegation : Event → Option Message
  | .apply (.delegateMessage m) => some m
  | _ => none

/-- The message id whose waiter an event registers, if it is a `send_message`. -/
def Event.sent? : Event → Option MessageId
  | .sendMessage m => some m.id
  | _ => none

/-- The entry an event applies, if it is one of the applier's. -/
def Event.logOp? : Event → Option LogOp
  | .apply op => some op
  | _ => none

/-- The node-local calls that write the endpoint tables outside the log. -/
def Event.writesTables : Event → Bool
  | .deleteEndpoint _ | .loadEpSync _ => true
  | _ => false

namespace Replica

/-- A node's copy of a freshly loaded topic. -/
def new (node : NodeId) (config : TopicConfig) : Replica :=
  ⟨node, .new config, [], ∅⟩

/-- The weak reference to a dropped endpoint no longer upgrades. -/
def dropLocal (t : TopicData) (address : EndpointAddr) : TopicData :=
  match t.localEndpoints.lookup address with
  | some _ => { t with localEndpoints := t.localEndpoints.insert address ⟨false⟩ }
  | none => t

/-- One step of the node. -/
def step (hash64 : ℕ → ℕ) (env : Env) (r : Replica) : Event → Except String (Replica × List Effect)
  | .apply op => (r.topic.apply hash64 r.node env op).map fun p => ({ r with topic := p.1 }, p.2)
  | .sendMessage m =>
    .ok ({ r with
      topic := { r.topic with queue := r.topic.queue.waitAck m.id }
      inFlight := r.inFlight ++ [m.id] }, [])
  | .sendMessageDone id _ => .ok ({ r with inFlight := r.inFlight.erase id }, [])
  | .createEndpoint address => .ok ({ r with creating := Insert.insert address r.creating }, [])
  | .createEndpointDone address committed =>
    .ok ({ r with
      creating := r.creating.erase address
      topic := if committed then
          { r.topic with localEndpoints := r.topic.localEndpoints.insert address ⟨true⟩ }
        else r.topic }, [])
  | .deleteEndpoint address => .ok ({ r with topic := r.topic.deleteEndpoint address }, [])
  | .dropEndpoint address => .ok ({ r with topic := dropLocal r.topic address }, [])
  | .loadEpSync infos => .ok ({ r with topic := r.topic.loadEpSync infos }, [])

/-- `Node::remove_topic`: the topic leaves the node, and every registered waiter, drained in the
registry's order, gets `MessageDropped`. -/
def removeTopic (r : Replica) (order : IterOrder MessageId) : List Effect :=
  (order.arrange (enumerate r.topic.queue.waiting)).map fun id =>
    .report id (.exception .messageDropped)

/-- The node fed its inputs in order by `f`, with the effects of each appended. A panic ends
it. -/
def feed {α : Type} (f : Replica → α → Except String (Replica × List Effect)) (r : Replica) :
    List α → Except String (Replica × List Effect)
  | [] => .ok (r, [])
  | a :: as =>
    match f r a with
    | .error e => .error e
    | .ok (r', fx) => (feed f r' as).map fun p => (p.1, fx ++ p.2)

/-- A run of the node: its steps in order. -/
def run (hash64 : ℕ → ℕ) (r : Replica) (evs : List (Env × Event)) :
    Except String (Replica × List Effect) :=
  feed (fun r p => step hash64 p.1 r p.2) r evs

/-- The ids of the messages that a list of events delegates, in order. -/
def delegatedIds (evs : List Event) : List MessageId :=
  (evs.filterMap Event.delegation).map Message.id

theorem delegatedIds_append (past : List Event) (ev : Event) :
    delegatedIds (past ++ [ev]) = delegatedIds past ++ ev.delegation.toList.map Message.id := by
  cases h : ev.delegation <;> simp [delegatedIds, h]

/-- What a step does to the topic: an entry runs the applier, `send_message` registers its
waiter, `delete_endpoint` and `load_ep_sync` run their own code, and every other step changes
at most the local endpoints. Only the applier has effects. -/
theorem step_topic {hash64 : ℕ → ℕ} {env : Env} {r r' : Replica} {ev : Event} {fx : List Effect}
    (h : step hash64 env r ev = .ok (r', fx)) :
    (∃ op, ev = .apply op ∧ r.topic.apply hash64 r.node env op = .ok (r'.topic, fx)) ∨
    (∃ m, ev = .sendMessage m ∧
      r'.topic = { r.topic with queue := r.topic.queue.waitAck m.id } ∧ fx = []) ∨
    (∃ a, ev = .deleteEndpoint a ∧ r'.topic = r.topic.deleteEndpoint a ∧ fx = []) ∨
    (∃ infos, ev = .loadEpSync infos ∧ r'.topic = r.topic.loadEpSync infos ∧ fx = []) ∨
    (ev.logOp? = none ∧ ev.writesTables = false ∧ ev.delegation = none ∧ ev.sent? = none ∧
      (∃ le, r'.topic = { r.topic with localEndpoints := le }) ∧ fx = []) := by
  cases ev with
  | apply op =>
    rcases hs : r.topic.apply hash64 r.node env op with e | ⟨t', fx'⟩
    · simp [step, hs, Except.map] at h
    · simp only [step, hs, Except.map, Except.ok.injEq, Prod.mk.injEq] at h
      obtain ⟨rfl, rfl⟩ := h
      exact .inl ⟨op, rfl, hs⟩
  | sendMessage m =>
    simp only [step, Except.ok.injEq, Prod.mk.injEq] at h
    obtain ⟨rfl, rfl⟩ := h
    exact .inr (.inl ⟨m, rfl, rfl, rfl⟩)
  | deleteEndpoint a =>
    simp only [step, Except.ok.injEq, Prod.mk.injEq] at h
    obtain ⟨rfl, rfl⟩ := h
    exact .inr (.inr (.inl ⟨a, rfl, rfl, rfl⟩))
  | loadEpSync infos =>
    simp only [step, Except.ok.injEq, Prod.mk.injEq] at h
    obtain ⟨rfl, rfl⟩ := h
    exact .inr (.inr (.inr (.inl ⟨infos, rfl, rfl, rfl⟩)))
  | createEndpointDone a c =>
    simp only [step, Except.ok.injEq, Prod.mk.injEq] at h
    obtain ⟨rfl, rfl⟩ := h
    exact .inr (.inr (.inr (.inr ⟨rfl, rfl, rfl, rfl, ⟨if c then r.topic.localEndpoints.insert a ⟨true⟩
      else r.topic.localEndpoints, by cases c <;> rfl⟩, rfl⟩)))
  | dropEndpoint a =>
    simp only [step, Except.ok.injEq, Prod.mk.injEq] at h
    obtain ⟨rfl, rfl⟩ := h
    exact .inr (.inr (.inr (.inr
      ⟨rfl, rfl, rfl, rfl, ⟨(dropLocal r.topic a).localEndpoints, by unfold dropLocal; split <;> rfl⟩,
        rfl⟩)))
  | _ =>
    simp only [step, Except.ok.injEq, Prod.mk.injEq] at h
    obtain ⟨rfl, rfl⟩ := h
    exact .inr (.inr (.inr (.inr ⟨rfl, rfl, rfl, rfl, ⟨_, rfl⟩, rfl⟩)))

/-- No step changes the topic's config. -/
theorem config_step {hash64 : ℕ → ℕ} {env : Env} {r r' : Replica} {ev : Event} {fx : List Effect}
    (h : step hash64 env r ev = .ok (r', fx)) : r'.topic.config = r.topic.config := by
  rcases step_topic h with ⟨op, -, hs⟩ | ⟨m, -, hq, -⟩ | ⟨a, -, hq, -⟩ | ⟨infos, -, hq, -⟩ |
    ⟨-, -, -, -, ⟨le, hq⟩, -⟩
  · exact TopicData.config_apply hs
  · rw [hq]
  · rw [hq]; rfl
  · rw [hq]; exact (TopicData.tablesOnly_loadEpSync _ _).config_eq
  · rw [hq]

/-- What a step does to the queue and the effects: the three entries that act on the queue run
their `TopicData` method, `send_message` registers its waiter, and every other step keeps the
queue and has no effect. -/
theorem step_queue {hash64 : ℕ → ℕ} {env : Env} {r r' : Replica} {ev : Event} {fx : List Effect}
    (h : step hash64 env r ev = .ok (r', fx)) :
    (∃ m, ev = .apply (.delegateMessage m) ∧
      r.topic.holdNewMessage hash64 r.node env m = .ok (r'.topic, fx)) ∨
    (∃ e is host, ev = .apply (.endpointOnline e is host) ∧
      r.topic.epOnline r.node env e is host = (r'.topic, fx)) ∨
    (∃ u, ev = .apply (.messageStateUpdate u) ∧ r.topic.updateAndFlush r.node u = (r'.topic, fx)) ∨
    (∃ m, ev = .sendMessage m ∧ r'.topic.queue = r.topic.queue.waitAck m.id ∧ fx = []) ∨
    (ev.delegation = none ∧ ev.sent? = none ∧ r'.topic.queue = r.topic.queue ∧ fx = []) := by
  rcases step_topic h with ⟨op, rfl, hs⟩ | ⟨m, rfl, hq, rfl⟩ | ⟨a, rfl, hq, rfl⟩ |
    ⟨infos, rfl, hq, rfl⟩ | ⟨-, -, hd, hsent, ⟨le, hq⟩, rfl⟩
  · cases op with
    | delegateMessage m => exact .inl ⟨m, rfl, hs⟩
    | endpointOnline e is host => exact .inr (.inl ⟨e, is, host, rfl, Except.ok.inj hs⟩)
    | messageStateUpdate u => exact .inr (.inr (.inl ⟨u, rfl, Except.ok.inj hs⟩))
    | _ =>
      simp only [TopicData.apply, Except.ok.injEq, Prod.mk.injEq] at hs
      obtain ⟨ht, rfl⟩ := hs
      exact .inr (.inr (.inr (.inr ⟨rfl, rfl, by rw [← ht]; rfl, rfl⟩)))
  · exact .inr (.inr (.inr (.inl ⟨m, rfl, by rw [hq], rfl⟩)))
  · exact .inr (.inr (.inr (.inr ⟨rfl, rfl, by rw [hq]; rfl, rfl⟩)))
  · exact .inr (.inr (.inr (.inr
      ⟨rfl, rfl, by rw [hq, (TopicData.tablesOnly_loadEpSync _ _).queue_eq], rfl⟩)))
  · exact .inr (.inr (.inr (.inr ⟨hd, hsent, by rw [hq], rfl⟩)))

theorem feed_cons_ok {α : Type} {f : Replica → α → Except String (Replica × List Effect)}
    {r r₁ : Replica} {a : α} {as : List α} {fx₁ : List Effect} (h : f r a = .ok (r₁, fx₁)) :
    feed f r (a :: as) = (feed f r₁ as).map fun p => (p.1, fx₁ ++ p.2) := by
  simp [feed, h]

/-- A run that does not panic runs its first input and then the rest. -/
theorem feed_cons_eq_ok {α : Type} {f : Replica → α → Except String (Replica × List Effect)}
    {r r' : Replica} {a : α} {as : List α} {fx : List Effect}
    (h : feed f r (a :: as) = .ok (r', fx)) :
    ∃ r₁ fx₁ fx₂, f r a = .ok (r₁, fx₁) ∧ feed f r₁ as = .ok (r', fx₂) ∧ fx = fx₁ ++ fx₂ := by
  rcases hs : f r a with e | ⟨r₁, fx₁⟩
  · simp [feed, hs] at h
  · rw [feed_cons_ok hs] at h
    rcases hr : feed f r₁ as with e | ⟨r₂, fx₂⟩
    · rw [hr] at h; cases h
    · simp only [hr, Except.map, Except.ok.injEq, Prod.mk.injEq] at h
      exact ⟨r₁, fx₁, fx₂, rfl, h.1 ▸ hr, h.2.symm⟩

/-- A run that reaches `r'` goes on from there. -/
theorem feed_append_ok {α : Type} {f : Replica → α → Except String (Replica × List Effect)}
    {r r' : Replica} {as : List α} {fx : List Effect} (h : feed f r as = .ok (r', fx))
    (bs : List α) : feed f r (as ++ bs) = (feed f r' bs).map fun p => (p.1, fx ++ p.2) := by
  induction as generalizing r fx with
  | nil =>
    cases h
    simp only [List.nil_append, Except.map]
    split <;> simp_all
  | cons a as ih =>
    obtain ⟨r₁, fx₁, fx₂, hs, hr, rfl⟩ := feed_cons_eq_ok h
    rw [List.cons_append, feed_cons_ok hs, ih hr]
    cases feed f r' bs <;> simp [Except.map]

/-- What holds of a replica, of the effects so far and of the inputs so far, and is kept by
every input, holds after every run. -/
theorem feed_invariant {α : Type} {f : Replica → α → Except String (Replica × List Effect)}
    (P : List α → Replica → List Effect → Prop)
    (hstep : ∀ past a r r' fx τ, P past r τ → f r a = .ok (r', fx) → P (past ++ [a]) r' (τ ++ fx))
    {as past : List α} {r r' : Replica} {τ fx : List Effect}
    (h0 : P past r τ) (hrun : feed f r as = .ok (r', fx)) : P (past ++ as) r' (τ ++ fx) := by
  induction as generalizing past r τ fx with
  | nil => cases hrun; simpa using h0
  | cons a as ih =>
    obtain ⟨r₁, fx₁, fx₂, hs, hr, rfl⟩ := feed_cons_eq_ok hrun
    simpa using ih (hstep _ _ _ _ _ _ h0 hs) hr

theorem run_cons_ok {hash64 : ℕ → ℕ} {env : Env} {r r₁ : Replica} {ev : Event}
    {evs : List (Env × Event)} {fx₁ : List Effect} (h : step hash64 env r ev = .ok (r₁, fx₁)) :
    run hash64 r ((env, ev) :: evs) = (run hash64 r₁ evs).map fun p => (p.1, fx₁ ++ p.2) :=
  feed_cons_ok h

theorem run_cons_error {hash64 : ℕ → ℕ} {env : Env} {r : Replica} {ev : Event}
    {evs : List (Env × Event)} {e : String} (h : step hash64 env r ev = .error e) :
    run hash64 r ((env, ev) :: evs) = .error e := by
  simp [run, feed, h]

/-- After a step, the replica a run ends in is the one the rest of the run ends in. -/
theorem run_cons_map_fst {γ : Type} (g : Replica → γ) {hash64 : ℕ → ℕ} {env : Env}
    {r r₁ : Replica} {ev : Event} {evs : List (Env × Event)} {fx₁ : List Effect}
    (h : step hash64 env r ev = .ok (r₁, fx₁)) :
    (run hash64 r ((env, ev) :: evs)).map (g ·.1) = (run hash64 r₁ evs).map (g ·.1) := by
  rw [run_cons_ok h]
  cases run hash64 r₁ evs <;> rfl

/-- A run that reaches `r` and one more step reach what the step reaches. -/
theorem run_snoc_ok {hash64 : ℕ → ℕ} {r₀ r r' : Replica} {evs : List (Env × Event)}
    {p : Env × Event} {τ fx : List Effect} (hrun : run hash64 r₀ evs = .ok (r, τ))
    (hs : step hash64 p.1 r p.2 = .ok (r', fx)) :
    run hash64 r₀ (evs ++ [p]) = .ok (r', τ ++ fx) := by
  rw [run, feed_append_ok hrun, @feed_cons_ok _ (fun r p => step hash64 p.1 r p.2) r r' p [] fx hs]
  simp [feed, Except.map]

/-- What holds of a replica, of the effects so far and of the events so far, and is kept by
every step, holds after every run. -/
theorem run_invariant {hash64 : ℕ → ℕ} (P : List Event → Replica → List Effect → Prop)
    (hstep : ∀ past env r ev r' fx τ, P past r τ → step hash64 env r ev = .ok (r', fx) →
      P (past ++ [ev]) r' (τ ++ fx))
    {evs : List (Env × Event)} {past : List Event} {r r' : Replica} {τ fx : List Effect}
    (h0 : P past r τ) (hrun : run hash64 r evs = .ok (r', fx)) :
    P (past ++ evs.map Prod.snd) r' (τ ++ fx) := by
  simpa using @feed_invariant _ _ (fun ps r τ => P (past ++ ps.map Prod.snd) r τ)
    (fun ps p _ _ _ _ hp hs => by simpa using hstep _ p.1 _ p.2 _ _ _ hp hs) evs [] r r' τ fx
    (by simpa using h0) hrun

/-! ## Snapshot installs -/

/-- `Topic::apply_snapshot` on the node. -/
def installSnapshot (r : Replica) (s : TopicSnapshot) : Replica × List Effect :=
  let p := r.topic.applySnapshot r.node s
  ({ r with topic := p.1 }, p.2)

end Replica

/-- What a node's copy of a topic goes through: a step, with the node's clock and hash order,
or the install of a snapshot that the log hands the node in place of entries it missed. -/
inductive Input
  | step (env : Env) (ev : Event)
  | installSnapshot (s : TopicSnapshot)

namespace Replica

/-- One input of the node. -/
def input (hash64 : ℕ → ℕ) (r : Replica) : Input → Except String (Replica × List Effect)
  | .step env ev => step hash64 env r ev
  | .installSnapshot s => .ok (r.installSnapshot s)

/-- A run of the node over steps and snapshot installs. -/
def exec (hash64 : ℕ → ℕ) (r : Replica) (inputs : List Input) :
    Except String (Replica × List Effect) :=
  feed (input hash64) r inputs

theorem feed_map {α β : Type} (f : Replica → β → Except String (Replica × List Effect))
    (g : α → β) (r : Replica) (as : List α) :
    feed f r (as.map g) = feed (fun r a => f r (g a)) r as := by
  induction as generalizing r with
  | nil => rfl
  | cons a as ih => simp only [List.map_cons, feed, ih]

/-- A run of steps is a run of inputs. -/
theorem exec_steps (hash64 : ℕ → ℕ) (r : Replica) (evs : List (Env × Event)) :
    exec hash64 r (evs.map fun p => .step p.1 p.2) = run hash64 r evs :=
  feed_map _ _ r evs

/-- What holds of a replica and is kept by every step and every snapshot install holds after
every run of inputs. -/
theorem exec_invariant {hash64 : ℕ → ℕ} (P : Replica → Prop)
    (hstep : ∀ env r ev r' fx, P r → step hash64 env r ev = .ok (r', fx) → P r')
    (hinstall : ∀ r s, P r → P (r.installSnapshot s).1)
    {inputs : List Input} {r r' : Replica} {fx : List Effect}
    (h0 : P r) (hrun : exec hash64 r inputs = .ok (r', fx)) : P r' :=
  @feed_invariant _ _ (fun _ r _ => P r) (fun _ i r r' fx _ hp hs => by
    cases i with
    | step env ev => exact hstep env r ev r' fx hp hs
    | installSnapshot s => cases hs; exact hinstall r s hp) inputs [] r r' [] fx h0 hrun

end Replica

end AsteroidMq
