import AsteroidMq.Properties.Delivery

/-!
# The queue over a run

Reference: `src/src/protocol/topic.rs`, `hold_new_message`, `ep_online` and
`update_and_flush`; modelled from the spec: `MessageQueue::poll_message` and `flush`.

A waiter hears `Ok` from a poll or a flush of a complete hold message, with its rows. Each such
report is traced back to the hold message it was read from, and that one to its delegation
(`OkReportsFrom`, `Attributed`): every `Ok` of a run is for a delegated message, and every row it
carries settles the ack kind the message asked for (`okReport_settles`).

`update_and_flush` tries every local recipient still owed the message it names
(`updateAndFlush_tries_local`). An endpoint that comes online on its own node as a live local
endpoint receives the matching Durable backlog within `ep_online` itself
(`epOnline_pushes_backlog`).
-/

namespace AsteroidMq

open HoldMessage

/-! ## What an `Ok` report says -/

/-- Every `Ok` report of `fx` is for the id of a hold message of `l`, and every row it carries
settles that hold message's ack kind. -/
def OkReportsFrom (l : List HoldMessage) (fx : List Effect) : Prop :=
  ∀ id s, Effect.report id (.ok s) ∈ fx →
    ∃ h ∈ l, h.id = id ∧ ∀ e st, s.lookup e = some st → st.settles h.waitAck.expect = true

namespace OkReportsFrom

variable {l l' : List HoldMessage} {fx fx' : List Effect}

theorem of_forall_ne (h : ∀ id s, Effect.report id (.ok s) ∉ fx) : OkReportsFrom l fx :=
  fun id s hr => absurd hr (h id s)

theorem append (h : OkReportsFrom l fx) (h' : OkReportsFrom l fx') : OkReportsFrom l (fx ++ fx') :=
  fun id s hr => (List.mem_append.mp hr).elim (h id s) (h' id s)

/-- A report read from a grown hold message is one of the hold message it grew from. -/
theorem of_grown {join : Message → EndpointAddr → Prop} (h : OkReportsFrom l' fx)
    (hg : List.SublistForall₂ (GrownFrom join) l' l) : OkReportsFrom l fx := fun id s hr => by
  obtain ⟨x, hx, rfl, hs⟩ := h id s hr
  obtain ⟨y, hy, hxy⟩ := exists_of_sublistForall₂ hg x hx
  exact ⟨y, hy, hxy.id_eq.symm, hxy.expect_eq ▸ hs⟩

theorem of_sublist (h : OkReportsFrom l' fx) (hs : l'.Sublist l) : OkReportsFrom l fx :=
  h.of_grown (@List.Sublist.sublistForall₂ _ (GrownFrom fun _ _ => False) _ _ hs _)

end OkReportsFrom

/-- A report of an error is no `Ok`. -/
theorem MessageQueue.okReportsFrom_resolve_exception (l : List HoldMessage) (q : MessageQueue)
    (id : MessageId) (e : WaitAckErrorException) :
    OkReportsFrom l (q.resolve id (.exception e)).2 :=
  .of_forall_ne fun _ _ hr => by rw [MessageQueue.resolve_effects] at hr; split at hr <;> simp_all

/-- `Ok` with the rows of a complete hold message of `l`. -/
theorem MessageQueue.okReportsFrom_resolve_ok {l : List HoldMessage} {h : HoldMessage}
    (hl : h ∈ l) (hres : h.waitAck.isResolved = true) (q : MessageQueue) :
    OkReportsFrom l (q.resolve h.id (.ok h.waitAck.status)).2 := fun id s hr => by
  rw [MessageQueue.resolve_effects] at hr
  split at hr
  · simp only [List.mem_singleton, Effect.report.injEq, WaitAckResult.ok.injEq] at hr
    obtain ⟨rfl, rfl⟩ := hr
    exact ⟨h, hl, rfl, (WaitAck.isResolved_iff _).mp hres⟩
  · cases hr

/-- `flush` tells `Ok` only for the complete hold messages it pops. -/
theorem MessageQueue.okReportsFrom_flushFrom (hs : List HoldMessage) (w : Finset MessageId) :
    OkReportsFrom hs (MessageQueue.flushFrom hs w).2 := by
  induction hs generalizing w with
  | nil => exact .of_forall_ne fun _ _ hr => by cases hr
  | cons h hs ih =>
    unfold MessageQueue.flushFrom
    split
    · exact (MessageQueue.okReportsFrom_resolve_ok (List.mem_cons_self h hs) ‹_› _).append
        ((ih _).of_sublist (List.sublist_cons_self h hs))
    · exact .of_forall_ne fun _ _ hr => by cases hr

namespace TopicData

/-- A dispatch only pushes. -/
theorem okReportsFrom_dispatchMessage (l : List HoldMessage) (node : NodeId) (t : TopicData)
    (message : Message) (epList : List EndpointAddr) :
    OkReportsFrom l (t.dispatchMessage node message epList).2 := by
  refine .of_forall_ne fun id s hr => ?_
  rw [dispatchMessage_eq] at hr
  obtain ⟨ep, -, hep⟩ := List.mem_flatMap.mp hr
  unfold pushMessageToLocalEp at hep
  split at hep
  · split at hep <;> simp_all
  · cases hep

theorem okReportsFrom_pollMessage (node : NodeId) (t : TopicData) (id : MessageId) :
    OkReportsFrom t.queue.holdMessages (t.pollMessage node id).2.2 := by
  unfold pollMessage
  split
  · exact .of_forall_ne fun _ _ hr => by cases hr
  · rename_i h hg
    have hl : h ∈ t.queue.holdMessages := List.mem_of_find?_eq_some hg
    have hid : h.id = id := by simpa using List.find?_some hg
    split
    · exact hid ▸ MessageQueue.okReportsFrom_resolve_ok hl ‹_› t.queue
    · exact okReportsFrom_dispatchMessage _ _ _ _ _

theorem okReportsFrom_flush (t : TopicData) : OkReportsFrom t.queue.holdMessages t.flush.2 :=
  MessageQueue.okReportsFrom_flushFrom _ _

theorem okReportsFrom_updateAndFlush (node : NodeId) (t : TopicData) (u : MessageStateUpdate) :
    OkReportsFrom t.queue.holdMessages (t.updateAndFlush node u).2 := by
  have hu := @grown_updateAcks (fun _ _ => False) t.queue u
  have hp := okReportsFrom_pollMessage node { t with queue := t.queue.updateAcks u } u.messageId
  dsimp only [updateAndFlush]
  split
  · exact (hp.of_grown hu).append (((okReportsFrom_flush _).of_grown
      (@grown_pollMessage (fun _ _ => False) node _ _)).of_grown hu)
  · exact hp.of_grown hu

theorem okReportsFrom_updateAndFlushEach (node : NodeId) (t : TopicData) (ids : List MessageId) :
    OkReportsFrom t.queue.holdMessages (t.updateAndFlushEach node ids).2 := by
  induction ids generalizing t with
  | nil => exact .of_forall_ne fun _ _ hr => by cases hr
  | cons id ids ih =>
    exact (okReportsFrom_updateAndFlush node t _).append
      ((ih _).of_grown (@grown_updateAndFlush (fun _ _ => False) node t _))

theorem okReportsFrom_admitMessage {node : NodeId} {env : Env} {t : TopicData} {message : Message}
    {epCollect : Finset EndpointAddr} {r : TopicData × List Effect}
    (h : t.admitMessage node env message epCollect = .ok r) :
    OkReportsFrom (t.queue.holdMessages ++ [⟨message, .new message.ackKind epCollect env.now⟩])
      r.2 := by
  rcases admitMessage_cases h with rfl | ⟨old, q, hpop, rfl⟩ | ⟨-, rfl⟩
  · exact MessageQueue.okReportsFrom_resolve_exception _ _ _ _
  · have hq := (MessageQueue.holdMessages_of_pop hpop).1
    refine (MessageQueue.okReportsFrom_resolve_exception _ _ _ _).append
      ((okReportsFrom_updateAndFlush _ _ _).of_sublist ((MessageQueue.push_sublist _ _).trans ?_))
    simp [hq]
  · exact (okReportsFrom_updateAndFlush _ _ _).of_sublist (MessageQueue.push_sublist _ _)

theorem okReportsFrom_holdNewMessage {hash64 : ℕ → ℕ} {node : NodeId} {env : Env}
    {t : TopicData} {message : Message} {r : TopicData × List Effect}
    (h : t.holdNewMessage hash64 node env message = .ok r) :
    OkReportsFrom (t.queue.holdMessages ++ (t.newHold hash64 env message).toList) r.2 := by
  rcases holdNewMessage_cases h with ⟨-, rfl⟩ | ⟨epCollect, hr, h⟩
  · exact MessageQueue.okReportsFrom_resolve_exception _ _ _ _
  · simpa [newHold, hr] using okReportsFrom_admitMessage h

theorem okReportsFrom_epOnline (node : NodeId) (env : Env) (t : TopicData)
    (endpoint : EndpointAddr) (interests : List Interest) (host : NodeId) :
    OkReportsFrom t.queue.holdMessages (t.epOnline node env endpoint interests host).2 :=
  (okReportsFrom_updateAndFlushEach node _ _).of_grown
    (grown_of_forall₂ (grown_needsRow _ endpoint _))

end TopicData

/-- Every `Ok` a step reports is read from a hold message it found or from the one it admits. -/
theorem okReportsFrom_step {hash64 : ℕ → ℕ} {env : Env} {r r' : Replica} {ev : Event}
    {fx : List Effect} (h : Replica.step hash64 env r ev = .ok (r', fx)) :
    OkReportsFrom (r.topic.queue.holdMessages ++ (ev.admitted hash64 env r.topic).toList) fx := by
  rcases Replica.step_queue h with ⟨m, rfl, hs⟩ | ⟨e, is, host, rfl, hs⟩ | ⟨u, rfl, hs⟩ |
    ⟨m, rfl, -, rfl⟩ | ⟨-, -, -, rfl⟩
  · exact TopicData.okReportsFrom_holdNewMessage hs
  · have hr := TopicData.okReportsFrom_epOnline r.node env r.topic e is host
    rw [hs] at hr
    exact hr.of_sublist (List.sublist_append_left _ _)
  · have hr := TopicData.okReportsFrom_updateAndFlush r.node r.topic u
    rw [hs] at hr
    exact hr.of_sublist (List.sublist_append_left _ _)
  all_goals exact .of_forall_ne fun _ _ hr => by cases hr

/-- Every hold message after a step grew from one it found or from the one it admits. -/
theorem exists_grownFrom_step {hash64 : ℕ → ℕ} {env : Env} {r r' : Replica} {ev : Event}
    {fx : List Effect} (hs : Replica.step hash64 env r ev = .ok (r', fx)) :
    ∀ h ∈ r'.topic.queue.holdMessages,
      ∃ x ∈ r.topic.queue.holdMessages ++ (ev.admitted hash64 env r.topic).toList,
        GrownFrom (ev.joins r.topic) h x := by
  obtain ⟨kept, fresh, heq, hk, hf, -⟩ := queue_step hs
  rw [heq]
  intro h hh
  rcases List.mem_append.mp hh with hh | hh
  · obtain ⟨x, hx, hg⟩ := exists_of_sublistForall₂ hk h hh
    exact ⟨x, List.mem_append_left _ hx, hg⟩
  · obtain ⟨x, hx, hg⟩ := exists_of_sublistForall₂ hf h hh
    exact ⟨x, List.mem_append_right _ hx, hg⟩

/-- Every hold message of the queue holds a message delegated in `past`, with that message's own
ack kind. -/
def Attributed (past : List Event) (l : List HoldMessage) : Prop :=
  ∀ h ∈ l, h.message ∈ past.filterMap Event.delegation ∧ h.waitAck.expect = h.message.ackKind

/-- A step attributes the hold messages it finds and the one it admits to the events so far, and
so the queue it leaves. -/
theorem attributed_step {hash64 : ℕ → ℕ} {env : Env} {r r' : Replica} {ev : Event}
    {fx : List Effect} {past : List Event} (ha : Attributed past r.topic.queue.holdMessages)
    (hs : Replica.step hash64 env r ev = .ok (r', fx)) :
    Attributed (past ++ [ev])
        (r.topic.queue.holdMessages ++ (ev.admitted hash64 env r.topic).toList) ∧
      Attributed (past ++ [ev]) r'.topic.queue.holdMessages := by
  have hnow : Attributed (past ++ [ev])
      (r.topic.queue.holdMessages ++ (ev.admitted hash64 env r.topic).toList) := by
    intro h hh
    rw [List.filterMap_append, List.mem_append]
    rcases List.mem_append.mp hh with hh | hh
    · exact ⟨.inl (ha h hh).1, (ha h hh).2⟩
    · obtain ⟨m, _, rfl, -, rfl⟩ := Event.eq_of_mem_admitted hh
      exact ⟨.inr (by simp [Event.delegation]), rfl⟩
  refine ⟨hnow, fun h hh => ?_⟩
  obtain ⟨x, hx, hg⟩ := exists_grownFrom_step hs h hh
  rw [hg.message_eq, hg.expect_eq]
  exact hnow x hx

/-- On every run of a node, a waiter hears `Ok` only for a message delegated in the run, and
every row the report carries settles the ack kind the message asked for: a message is never
reported delivered before each of its endpoints has reached that kind or failed. -/
theorem okReport_settles {hash64 : ℕ → ℕ} {node : NodeId} {config : TopicConfig}
    {evs : List (Env × Event)} {r : Replica} {fx : List Effect}
    (h : Replica.run hash64 (.new node config) evs = .ok (r, fx)) {id : MessageId}
    {s : StatusMap} (hr : Effect.report id (.ok s) ∈ fx) :
    ∃ m ∈ (evs.map Prod.snd).filterMap Event.delegation, m.id = id ∧
      ∀ e st, s.lookup e = some st → st.settles m.ackKind = true := by
  refine (@Replica.run_invariant hash64
    (fun past r τ => Attributed past r.topic.queue.holdMessages ∧ ∀ id s,
      Effect.report id (.ok s) ∈ τ → ∃ m ∈ past.filterMap Event.delegation, m.id = id ∧
        ∀ e st, s.lookup e = some st → st.settles m.ackKind = true)
    (fun past _ _ ev _ _ _ hinv hs => ?_) evs [] (.new node config) r [] fx
    (And.intro (fun _ h => by cases h) fun _ _ h => by cases h) h).2 id s hr
  obtain ⟨ha, hτ⟩ := hinv
  refine ⟨(attributed_step ha hs).2, fun id s hr => ?_⟩
  rcases List.mem_append.mp hr with hr | hr
  · obtain ⟨m, hm, hid, hsettle⟩ := hτ id s hr
    exact ⟨m, by rw [List.filterMap_append]; exact List.mem_append_left _ hm, hid, hsettle⟩
  · obtain ⟨x, hx, rfl, hsettle⟩ := okReportsFrom_step hs id s hr
    obtain ⟨hm, hk⟩ := (attributed_step ha hs).1 x hx
    exact ⟨x.message, hm, rfl, hk ▸ hsettle⟩

/-- Endpoint 20 is created on node 1 with interest `s`; message 1, sent with ack kind `Sent`, is
pushed to it, and the next state update of the message finds it complete. -/
def deliveredRun : List (Env × Event) :=
  [(⟨0, .id⟩, .createEndpoint 20), (⟨0, .id⟩, .apply (.endpointOnline 20 [⟨[.literal "s"]⟩] 1)),
    (⟨0, .id⟩, .createEndpointDone 20 true),
    (⟨0, .id⟩, .sendMessage ⟨⟨1, .sent, .online, [⟨["s"]⟩]⟩⟩),
    (⟨0, .id⟩, .apply (.delegateMessage ⟨⟨1, .sent, .online, [⟨["s"]⟩]⟩⟩)),
    (⟨0, .id⟩, .apply (.messageStateUpdate ⟨1, []⟩))]

theorem okReport_settles_delivered :
    ∃ r fx, Replica.run id (.new 1 ⟨⟨[]⟩, none⟩) deliveredRun = .ok (r, fx) ∧
      Effect.report 1 (.ok ((unsentStatus {20}).insert 20 .sent)) ∈ fx ∧
      ∃ m ∈ (deliveredRun.map Prod.snd).filterMap Event.delegation, m.id = 1 ∧
        ∀ e st, ((unsentStatus {20}).insert 20 .sent).lookup e = some st →
          st.settles m.ackKind = true :=
  ⟨_, _, rfl, by decide,
    @okReport_settles id 1 ⟨⟨[]⟩, none⟩ deliveredRun _ _ rfl 1 _ (by decide)⟩

/-! ## What `update_and_flush` leaves of the message it names -/

/-- A poll on a queue with distinct ids leaves the message complete, or with no `Unsent` row
for an endpoint routed to this node: it tries every local endpoint it still owes. -/
theorem TopicData.pollMessage_unsent_not_local (node : NodeId) (t : TopicData) (id : MessageId)
    (hnd : (t.queue.holdMessages.map HoldMessage.id).Nodup) :
    ∀ h ∈ (t.pollMessage node id).1.queue.holdMessages, h.id = id →
      h.waitAck.isResolved = true ∨
        ∀ e, h.waitAck.status.lookup e = some .unsent → t.epRoutingTable.lookup e ≠ some node := by
  intro h hh hid
  rcases hget : t.queue.get? id with _ | h₀
  · simp only [pollMessage, hget] at hh
    exact absurd hid (by simpa using List.find?_eq_none.mp hget h hh)
  · have hh₀ : h₀ ∈ t.queue.holdMessages := List.mem_of_find?_eq_some hget
    have hid₀ : h₀.id = id := by simpa using List.find?_some hget
    cases hres : h₀.waitAck.isResolved
    · simp only [pollMessage, hget, hres, Bool.false_eq_true, ↓reduceIte] at hh
      obtain ⟨h₁, hf, rfl⟩ := eq_of_mem_modifyHold hnd hh hid
      obtain rfl : h₀ = h₁ := Option.some.inj (hget.symm.trans hf)
      refine .inr fun e he hroute => ?_
      rw [dispatchMessage_eq] at he
      set eps := (enumerate h₀.waitAck.unsentEndpoints).filter
        fun ep => t.epRoutingTable.lookup ep = some node
      by_cases hmem : e ∈ (eps.map fun ep => (ep, (t.pushMessageToLocalEp ep h₀.message).1)).map
          Prod.fst
      · obtain ⟨st, hst, hne⟩ := @ne_unsent_applyResults h₀ _ e hmem
        exact hne (Option.some.inj (hst.symm.trans he))
      · rw [lookup_applyResults_of_not_mem hmem] at he
        refine hmem ?_
        simp [eps, List.map_map, Function.comp_def, WaitAck.mem_unsentEndpoints, he, hroute]
    · simp only [pollMessage, hget, hres, ↓reduceIte, MessageQueue.resolve_holdMessages] at hh
      exact .inl (List.inj_on_of_nodup_map hnd hh hh₀ (hid.trans hid₀.symm) ▸ hres)

theorem MessageQueue.map_id_updateAcks (q : MessageQueue) (u : MessageStateUpdate) :
    (q.updateAcks u).holdMessages.map HoldMessage.id = q.holdMessages.map HoldMessage.id :=
  (map_id_sublist_of_grown (@TopicData.grown_updateAcks (fun _ _ => False) q u)).eq_of_length
    (by simpa [MessageQueue.len] using MessageQueue.len_updateAcks q u)

theorem mem_modifyHold_of_ne {id : MessageId} {f : HoldMessage → HoldMessage}
    {l : List HoldMessage} {x : HoldMessage} (hx : x ∈ l) (hid : x.id ≠ id) :
    x ∈ modifyHold id f l := by
  induction l with
  | nil => cases hx
  | cons y ys ih =>
    unfold modifyHold
    rcases List.mem_cons.mp hx with rfl | hx
    · rw [if_neg hid]; exact List.mem_cons_self _ _
    · split
      · exact List.mem_cons_of_mem _ hx
      · exact List.mem_cons_of_mem _ (ih hx)

theorem mem_dropWhile_of_not {α : Type} {p : α → Bool} {l : List α} {x : α} (hx : x ∈ l)
    (hp : p x = false) : x ∈ l.dropWhile p := by
  induction l with
  | nil => cases hx
  | cons y ys ih =>
    rcases List.mem_cons.mp hx with rfl | hx
    · rw [List.dropWhile_cons_of_neg (by simp [hp])]; exact List.mem_cons_self _ _
    · rw [List.dropWhile_cons]
      split
      · exact ih hx
      · exact List.mem_cons_of_mem _ hx

theorem MessageQueue.updateAcks_newEmpty (q : MessageQueue) (id : MessageId) :
    q.updateAcks (.newEmpty id) = q := rfl

/-- A re-poll of another message keeps an incomplete hold message as it is. -/
theorem TopicData.mem_updateAndFlush_of_ne (node : NodeId) (t : TopicData) {h : HoldMessage}
    {id : MessageId} (hh : h ∈ t.queue.holdMessages) (hres : h.waitAck.isResolved = false)
    (hid : h.id ≠ id) : h ∈ (t.updateAndFlush node (.newEmpty id)).1.queue.holdMessages := by
  have hp : h ∈ (t.pollMessage node id).1.queue.holdMessages := by
    unfold pollMessage
    split
    · exact hh
    · split
      · simpa using hh
      · exact mem_modifyHold_of_ne hh hid
  dsimp only [updateAndFlush]
  rw [MessageQueue.updateAcks_newEmpty]
  split
  · simpa [flush] using mem_dropWhile_of_not hp hres
  · exact hp

/-- The poll of a hold message still owed to a live local endpoint pushes it there. -/
theorem TopicData.push_mem_updateAndFlush_self (node : NodeId) (t : TopicData) {h : HoldMessage}
    {e : EndpointAddr} {r : LocalEndpointRef} (hnd : (t.queue.holdMessages.map HoldMessage.id).Nodup)
    (hh : h ∈ t.queue.holdMessages) (hres : h.waitAck.isResolved = false)
    (he : h.waitAck.status.lookup e = some .unsent) (hroute : t.epRoutingTable.lookup e = some node)
    (hl : t.getLocalEp e = some r) (halive : r.alive = true) :
    Effect.push e h.message ∈ (t.updateAndFlush node (.newEmpty h.id)).2 := by
  have hget : t.queue.get? h.id = some h := by
    obtain ⟨h', hf⟩ : ∃ h', t.queue.holdMessages.find? (fun x => x.id = h.id) = some h' :=
      Option.isSome_iff_exists.mp (List.find?_isSome.mpr ⟨h, hh, by simp⟩)
    rw [MessageQueue.get?, hf, List.inj_on_of_nodup_map hnd (List.mem_of_find?_eq_some hf) hh
      (by simpa using List.find?_some hf)]
  have hpush : Effect.push e h.message ∈ (t.pollMessage node h.id).2.2 := by
    simp only [pollMessage, hget, hres, Bool.false_eq_true, ↓reduceIte, dispatchMessage_eq]
    refine List.mem_flatMap.mpr ⟨e, List.mem_filter.mpr ⟨mem_enumerate.mpr
      (WaitAck.mem_unsentEndpoints.mpr he), by simpa using hroute⟩, ?_⟩
    simp [pushMessageToLocalEp, hl, halive]
  dsimp only [updateAndFlush]
  rw [MessageQueue.updateAcks_newEmpty]
  split
  · exact List.mem_append_left _ hpush
  · exact hpush

/-- Re-polling a list of ids that holds the id of a hold message still owed to a live local
endpoint pushes it there. -/
theorem TopicData.push_mem_updateAndFlushEach (node : NodeId) {e : EndpointAddr}
    {r : LocalEndpointRef} (halive : r.alive = true) (ids : List MessageId) :
    ∀ (t : TopicData) (h : HoldMessage), (t.queue.holdMessages.map HoldMessage.id).Nodup →
      h ∈ t.queue.holdMessages → h.waitAck.isResolved = false →
      h.waitAck.status.lookup e = some .unsent → t.epRoutingTable.lookup e = some node →
      t.getLocalEp e = some r → h.id ∈ ids → Effect.push e h.message ∈ (t.updateAndFlushEach node ids).2 := by
  induction ids with
  | nil => intro _ _ _ _ _ _ _ _ hid; cases hid
  | cons id ids ih =>
    intro t h hnd hh hres he hroute hl hid
    simp only [updateAndFlushEach]
    by_cases hx : h.id = id
    · subst hx
      exact List.mem_append_left _ (push_mem_updateAndFlush_self node t hnd hh hres he hroute hl halive)
    have hq := queueOnly_updateAndFlush node t (.newEmpty id)
    refine List.mem_append_right _ (ih _ h ?_ (mem_updateAndFlush_of_ne node t hh hres hx) hres he
      (by rw [hq.epRoutingTable_eq]; exact hroute) (by rw [getLocalEp, hq.localEndpoints_eq]; exact hl)
      ((List.mem_cons.mp hid).resolve_left hx))
    exact (map_id_sublist_of_grown (@grown_updateAndFlush (fun _ _ => False) node t _)).nodup hnd

/-- A fresh `Unsent` row keeps a hold message that asks for more than `None` incomplete. -/
theorem isResolved_addUnsent (h : HoldMessage) (e : EndpointAddr)
    (hexp : h.waitAck.expect ≠ .none) : (h.addUnsent e).waitAck.isResolved = false := by
  refine Bool.eq_false_iff.mpr fun hres => hexp ?_
  have : MessageStatusKind.unsent.settles h.waitAck.expect = true :=
    (WaitAck.isResolved_iff _).mp hres e .unsent (by simp [addUnsent])
  revert this
  cases h.waitAck.expect <;> decide

/-- An endpoint that comes online on its own node while a live local endpoint there receives,
within `ep_online`, every held Durable message that its interests match, that had no row for it
and that asks for more than `None`. -/
theorem epOnline_pushes_backlog (node : NodeId) (env : Env) (t : TopicData)
    (endpoint : EndpointAddr) (interests : List Interest)
    (hnd : (t.queue.holdMessages.map HoldMessage.id).Nodup) {r : LocalEndpointRef}
    (hl : t.getLocalEp endpoint = some r) (halive : r.alive = true) :
    ∀ h ∈ t.queue.holdMessages,
      TopicData.needsRow (t.epInterestMap.insertAll interests endpoint) endpoint h = true →
      h.waitAck.expect ≠ .none →
      Effect.push endpoint h.message ∈ (t.epOnline node env endpoint interests node).2 := by
  intro h hh hn hexp
  have hids : ∀ l : List HoldMessage, (l.map fun x =>
      if TopicData.needsRow (t.epInterestMap.insertAll interests endpoint) endpoint x
      then x.addUnsent endpoint else x).map HoldMessage.id = l.map HoldMessage.id := fun l => by
    rw [List.map_map]
    exact List.map_congr_left fun x _ => by dsimp only [Function.comp_def]; split <;> rfl
  exact TopicData.push_mem_updateAndFlushEach node halive _ _ (h.addUnsent endpoint)
    (by rw [hids]; exact hnd) (List.mem_map.mpr ⟨h, hh, if_pos hn⟩)
    (isResolved_addUnsent h endpoint hexp) (by simp [addUnsent]) (Finmap.lookup_insert _) hl
    ((env.order.perm _).mem_iff.mpr (List.mem_dedup.mpr
      (List.mem_map.mpr ⟨h, List.mem_filter.mpr ⟨hh, hn⟩, rfl⟩)))

/-- Endpoint 30, local and alive on node 1, comes online there with interest `s` while node 1
holds Durable message 1 of subject `s`, owed to endpoint 20 only: the message is pushed to 30. -/
theorem epOnline_pushes_backlog_local :
    let t : TopicData := { TopicData.new ⟨⟨[]⟩, none⟩ with
      localEndpoints := (∅ : Finmap fun _ : EndpointAddr => LocalEndpointRef).insert 30 ⟨true⟩
      queue := ⟨[⟨⟨⟨1, .processed, .durable, [⟨["s"]⟩]⟩⟩,
        ⟨.processed, (∅ : StatusMap).insert 20 .unsent, 0⟩⟩], ∅⟩ }
    let h : HoldMessage :=
      ⟨⟨⟨1, .processed, .durable, [⟨["s"]⟩]⟩⟩, ⟨.processed, (∅ : StatusMap).insert 20 .unsent, 0⟩⟩
    (t.queue.holdMessages.map HoldMessage.id).Nodup ∧ t.getLocalEp 30 = some ⟨true⟩ ∧
      h ∈ t.queue.holdMessages ∧
      TopicData.needsRow (t.epInterestMap.insertAll [⟨[.literal "s"]⟩] 30) 30 h = true ∧
      h.waitAck.expect ≠ .none ∧
      Effect.push 30 h.message ∈ (t.epOnline 1 ⟨0, .id⟩ 30 [⟨[.literal "s"]⟩] 1).2 := by
  intro t h
  have hnd : (t.queue.holdMessages.map HoldMessage.id).Nodup := by decide
  have hl : t.getLocalEp 30 = some ⟨true⟩ := rfl
  have hh : h ∈ t.queue.holdMessages := List.mem_singleton_self _
  have hn : TopicData.needsRow (t.epInterestMap.insertAll [⟨[.literal "s"]⟩] 30) 30 h = true := by
    decide
  have hexp : h.waitAck.expect ≠ .none := by decide
  exact ⟨hnd, hl, hh, hn, hexp,
    epOnline_pushes_backlog 1 ⟨0, .id⟩ t 30 _ hnd hl rfl h hh hn hexp⟩

end AsteroidMq
