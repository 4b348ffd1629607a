import AsteroidMq.Protocol.Node

/-!
# Where status rows come from, and that they only rise

Reference: `src/src/protocol/topic.rs`, `hold_new_message`, `ep_online`, `update_and_flush` and
`Topic::apply_snapshot`; modelled from the spec: `update_ack`, `push`, `poll_message` and
`flush`.

A step of a node changes a hold message that stays in the queue only in its rows, and in three
ways only: `update_ack` raises a row along `MessageStatusKind.lt`, a poll records the dispatch
to an `Unsent` row as `Sent` or `Unreachable`, and `ep_online` adds an `Unsent` row for the
endpoint coming online to a Durable message that the endpoint's interests now match.
`GrownFrom join h' h` says this of two versions of one hold message, `join` being the rows a
step may add, and `List.SublistForall₂ (GrownFrom join)` says it of two queues: the later one
is matched in order with a sublist of the earlier one, the flushed, evicted and replaced
messages left out.

Shape of the proof: one lemma per row write (`grownFrom_setRow`, `grownFrom_updateAck`,
`grownFrom_applyResults`, `grownFrom_addUnsent`), one per queue function, and `queue_step` for a
step of a node, whose only new hold message is the one it admits (`Event.admitted`), under an id
that no kept hold message has. From it: the ids stay distinct over every run, snapshot installs
included (`nodupIds_exec`); a step keeps each row of each message it keeps under the same id,
unless it delegates that id again (`status_monotone`); and every row of a held message comes
from its admission or from a later `EndpointOnline` (`statusRows_origin`).
-/

namespace AsteroidMq

namespace HoldMessage

/-- `h'` is `h` with only its rows changed, as the queue changes them: the same message, ack
kind and admission second, every row of `h` still there and not lowered, and each new row one
that `join` allows for the message. -/
structure GrownFrom (join : Message → EndpointAddr → Prop) (h' h : HoldMessage) : Prop where
  message_eq : h'.message = h.message
  expect_eq : h'.waitAck.expect = h.waitAck.expect
  timestamp_eq : h'.waitAck.timestamp = h.waitAck.timestamp
  row_le : ∀ e s, h.waitAck.status.lookup e = some s →
    ∃ s', h'.waitAck.status.lookup e = some s' ∧ s.le s'
  row_new : ∀ e ∈ h'.waitAck.status, e ∈ h.waitAck.status ∨ join h.message e

variable {join : Message → EndpointAddr → Prop}

theorem GrownFrom.refl (h : HoldMessage) : GrownFrom join h h :=
  ⟨rfl, rfl, rfl, fun _ s hs => ⟨s, hs, .inl rfl⟩, fun _ he => .inl he⟩

theorem GrownFrom.trans {h₁ h₂ h₃ : HoldMessage} (h₂₁ : GrownFrom join h₂ h₁)
    (h₃₂ : GrownFrom join h₃ h₂) : GrownFrom join h₃ h₁ where
  message_eq := h₃₂.message_eq.trans h₂₁.message_eq
  expect_eq := h₃₂.expect_eq.trans h₂₁.expect_eq
  timestamp_eq := h₃₂.timestamp_eq.trans h₂₁.timestamp_eq
  row_le e s hs := by
    obtain ⟨s₂, hs₂, hle₂⟩ := h₂₁.row_le e s hs
    obtain ⟨s₃, hs₃, hle₃⟩ := h₃₂.row_le e s₂ hs₂
    exact ⟨s₃, hs₃, MessageStatusKind.le_trans hle₂ hle₃⟩
  row_new e he := (h₃₂.row_new e he).elim (h₂₁.row_new e) fun hj => .inr (h₂₁.message_eq ▸ hj)

instance : IsRefl HoldMessage (GrownFrom join) :=
  ⟨GrownFrom.refl⟩

instance : IsTrans HoldMessage (GrownFrom join) :=
  ⟨fun _ _ _ hab hbc => hbc.trans hab⟩

theorem GrownFrom.id_eq {h' h : HoldMessage} (hg : GrownFrom join h' h) : h'.id = h.id := by
  simp [HoldMessage.id, hg.message_eq]

/-- A row of `h` is in `h'`, not lowered, and as it was if it had failed. -/
theorem GrownFrom.row_kept {h' h : HoldMessage} (hg : GrownFrom join h' h) {e : EndpointAddr}
    {s : MessageStatusKind} (hs : h.waitAck.status.lookup e = some s) :
    ∃ s', h'.waitAck.status.lookup e = some s' ∧ s.le s' ∧ (s.isFailed → s' = s) := by
  obtain ⟨s', hs', hle⟩ := hg.row_le e s hs
  exact ⟨s', hs', hle, fun hfail => MessageStatusKind.eq_of_le_of_isFailed hfail hle⟩

/-- `h'` is `h` with every row still there and not lowered, a failed row as it was. -/
def RowsKept (h' h : HoldMessage) : Prop :=
  h'.message = h.message ∧ ∀ e s, h.waitAck.status.lookup e = some s →
    ∃ s', h'.waitAck.status.lookup e = some s' ∧ s.le s' ∧ (s.isFailed → s' = s)

theorem GrownFrom.rowsKept {h' h : HoldMessage} (hg : GrownFrom join h' h) : RowsKept h' h :=
  ⟨hg.message_eq, fun _ _ => hg.row_kept⟩

/-- Writing a row that raises the row before. -/
theorem grownFrom_setRow {h : HoldMessage} {e : EndpointAddr} {old new : MessageStatusKind}
    (hold : h.waitAck.status.lookup e = some old) (hle : old.le new) :
    GrownFrom join (h.setRow e new) h where
  message_eq := rfl
  expect_eq := rfl
  timestamp_eq := rfl
  row_le a s hs := by
    by_cases hae : a = e
    · subst hae
      rw [hold] at hs
      cases hs
      exact ⟨new, by simp, hle⟩
    · exact ⟨s, by simpa [Finmap.lookup_insert_of_ne _ hae] using hs, .inl rfl⟩
  row_new a ha := by
    rcases Finmap.mem_insert.mp ha with rfl | ha
    · exact .inl (Finmap.mem_of_lookup_eq_some hold)
    · exact .inl ha

theorem grownFrom_updateAck (h : HoldMessage) (e : EndpointAddr) (s : MessageStatusKind) :
    GrownFrom join (h.updateAck e s) h := by
  unfold updateAck
  split
  · split
    · exact grownFrom_setRow ‹_› (.inr ‹_›)
    · exact .refl h
  · exact .refl h

/-- Dispatch results on distinct `Unsent` rows raise them. -/
theorem grownFrom_applyResults {h : HoldMessage} {results : List (EndpointAddr × Bool)}
    (hnd : (results.map Prod.fst).Nodup)
    (hun : ∀ r ∈ results, h.waitAck.status.lookup r.1 = some .unsent) :
    GrownFrom join (h.applyResults results) h := by
  induction results generalizing h with
  | nil => exact .refl h
  | cons r rs ih =>
    simp only [List.map_cons, List.nodup_cons, List.mem_map] at hnd
    have h₁ : GrownFrom join (h.setRow r.1 (if r.2 then .sent else .unreachable)) h :=
      grownFrom_setRow (hun r (List.mem_cons_self _ _)) (MessageStatusKind.unsent_le _)
    refine h₁.trans (ih hnd.2 fun r' hr' => ?_)
    have hne : r'.1 ≠ r.1 := fun he => hnd.1 ⟨r', hr', he⟩
    simpa [Finmap.lookup_insert_of_ne _ hne] using hun r' (List.mem_cons_of_mem _ hr')

theorem grownFrom_addUnsent {h : HoldMessage} {e : EndpointAddr} (he : e ∉ h.waitAck.status)
    (hj : join h.message e) : GrownFrom join (h.addUnsent e) h where
  message_eq := rfl
  expect_eq := rfl
  timestamp_eq := rfl
  row_le a s hs := by
    have hae : a ≠ e := by rintro rfl; exact he (Finmap.mem_of_lookup_eq_some hs)
    exact ⟨s, by simpa [addUnsent, Finmap.lookup_insert_of_ne _ hae] using hs, .inl rfl⟩
  row_new a ha := by
    rcases Finmap.mem_insert.mp ha with rfl | ha
    · exact .inr hj
    · exact .inl ha

end HoldMessage

/-! ## Queues -/

open HoldMessage

variable {join : Message → EndpointAddr → Prop}

theorem grown_refl (l : List HoldMessage) : List.SublistForall₂ (GrownFrom join) l l :=
  (List.Sublist.refl l).sublistForall₂

theorem grown_trans {l₀ l₁ l₂ : List HoldMessage} (h₁ : List.SublistForall₂ (GrownFrom join) l₁ l₀)
    (h₂ : List.SublistForall₂ (GrownFrom join) l₂ l₁) : List.SublistForall₂ (GrownFrom join) l₂ l₀ :=
  IsTrans.trans _ _ _ h₂ h₁

theorem grown_of_forall₂ {l' l : List HoldMessage} (h : List.Forall₂ (GrownFrom join) l' l) :
    List.SublistForall₂ (GrownFrom join) l' l :=
  List.sublistForall₂_iff.mpr ⟨l, h, .refl l⟩

theorem sublistForall₂_imp {α β : Type} {R S : α → β → Prop} (H : ∀ a b, R a b → S a b)
    {l : List α} {l' : List β} (h : List.SublistForall₂ R l l') : List.SublistForall₂ S l l' := by
  obtain ⟨l₀, hf, hs⟩ := List.sublistForall₂_iff.mp h
  exact List.sublistForall₂_iff.mpr ⟨l₀, hf.imp H, hs⟩

theorem exists_of_sublistForall₂ {α β : Type} {R : α → β → Prop} {l : List α} {a : List β}
    (h : List.SublistForall₂ R l a) : ∀ y ∈ l, ∃ x ∈ a, R y x := by
  induction h with
  | nil => simp
  | cons hr _ ih =>
    intro y hy
    rcases List.mem_cons.mp hy with rfl | hy
    · exact ⟨_, List.mem_cons_self _ _, hr⟩
    · obtain ⟨x, hx, hxy⟩ := ih y hy
      exact ⟨x, List.mem_cons_of_mem _ hx, hxy⟩
  | cons_right _ ih =>
    intro y hy
    obtain ⟨x, hx, hxy⟩ := ih y hy
    exact ⟨x, List.mem_cons_of_mem _ hx, hxy⟩

/-- A queue matched with the concatenation of two lists splits into a part matched with each. -/
theorem sublistForall₂_append_right {α β : Type} {R : α → β → Prop} {l : List α}
    {a b : List β} (h : List.SublistForall₂ R l (a ++ b)) :
    ∃ l₁ l₂, l = l₁ ++ l₂ ∧ List.SublistForall₂ R l₁ a ∧ List.SublistForall₂ R l₂ b := by
  induction a generalizing l with
  | nil => exact ⟨[], l, rfl, .nil, h⟩
  | cons x a ih =>
    cases h with
    | nil => exact ⟨[], [], rfl, .nil, .nil⟩
    | cons hr hl =>
      obtain ⟨l₁, l₂, rfl, h₁, h₂⟩ := ih hl
      exact ⟨_ :: l₁, l₂, rfl, .cons hr h₁, h₂⟩
    | cons_right hl =>
      obtain ⟨l₁, l₂, rfl, h₁, h₂⟩ := ih hl
      exact ⟨l₁, l₂, rfl, .cons_right h₁, h₂⟩

theorem map_id_of_forall₂ {l' l : List HoldMessage} (h : List.Forall₂ (GrownFrom join) l' l) :
    l'.map HoldMessage.id = l.map HoldMessage.id := by
  induction h with
  | nil => rfl
  | cons hg _ ih => simp [hg.id_eq, ih]

/-- A queue grown from another keeps a sublist of its ids, in order. -/
theorem map_id_sublist_of_grown {l' l : List HoldMessage}
    (h : List.SublistForall₂ (GrownFrom join) l' l) :
    (l'.map HoldMessage.id).Sublist (l.map HoldMessage.id) := by
  obtain ⟨l₀, hf, hs⟩ := List.sublistForall₂_iff.mp h
  rw [map_id_of_forall₂ hf]
  exact hs.map _

/-- `modifyHold` grows the hold message it rewrites, the first one with the id. -/
theorem forall₂_modifyHold {id : MessageId} {f : HoldMessage → HoldMessage}
    {l : List HoldMessage}
    (hf : ∀ h, l.find? (fun h => h.id = id) = some h → GrownFrom join (f h) h) :
    List.Forall₂ (GrownFrom join) (modifyHold id f l) l := by
  induction l with
  | nil => exact .nil
  | cons x xs ih =>
    unfold modifyHold
    split
    · exact .cons (hf x (by simp [*])) (List.forall₂_refl xs)
    · exact .cons (.refl x) (ih fun h hh => hf h (by simp [*]))

namespace TopicData

theorem grown_updateAcks (q : MessageQueue) (u : MessageStateUpdate) :
    List.SublistForall₂ (GrownFrom join) (q.updateAcks u).holdMessages q.holdMessages := by
  unfold MessageQueue.updateAcks
  induction u.status generalizing q with
  | nil => exact grown_refl _
  | cons r rs ih =>
    exact grown_trans (grown_of_forall₂ (forall₂_modifyHold fun h _ => grownFrom_updateAck h _ _))
      (ih _)

/-- A poll raises the `Unsent` rows it dispatches to, in the hold message it finds. -/
theorem grown_pollMessage (node : NodeId) (t : TopicData) (id : MessageId) :
    List.SublistForall₂ (GrownFrom join) (pollMessage node t id).1.queue.holdMessages
      t.queue.holdMessages := by
  unfold pollMessage
  split
  · exact grown_refl _
  · rename_i h hg
    split
    · simpa using grown_refl _
    · refine grown_of_forall₂ (forall₂_modifyHold fun h' hh => ?_)
      obtain rfl : h' = h := Option.some.inj (hh.symm.trans hg)
      rw [dispatchMessage_eq]
      apply grownFrom_applyResults
      · simpa [Function.comp_def] using (nodup_enumerate _).filter _
      · intro r hr
        simp only [List.mem_map, List.mem_filter, mem_enumerate] at hr
        obtain ⟨ep, ⟨hep, -⟩, rfl⟩ := hr
        exact WaitAck.mem_unsentEndpoints.mp hep

theorem grown_flush (t : TopicData) :
    List.SublistForall₂ (GrownFrom join) t.flush.1.queue.holdMessages t.queue.holdMessages := by
  simpa [flush] using (List.dropWhile_suffix _).sublist.sublistForall₂

theorem grown_updateAndFlush (node : NodeId) (t : TopicData) (u : MessageStateUpdate) :
    List.SublistForall₂ (GrownFrom join) (updateAndFlush node t u).1.queue.holdMessages
      t.queue.holdMessages := by
  have h := grown_trans (@grown_updateAcks join t.queue u)
    (grown_pollMessage node { t with queue := t.queue.updateAcks u } u.messageId)
  dsimp only [updateAndFlush]
  split
  · exact grown_trans h (grown_flush _)
  · exact h

theorem grown_updateAndFlushEach (node : NodeId) (t : TopicData) (ids : List MessageId) :
    List.SublistForall₂ (GrownFrom join) (updateAndFlushEach node t ids).1.queue.holdMessages
      t.queue.holdMessages := by
  induction ids generalizing t with
  | nil => exact grown_refl _
  | cons id ids ih => exact grown_trans (grown_updateAndFlush node t _) (ih _)

theorem grown_pollAll (node : NodeId) (t : TopicData) :
    List.SublistForall₂ (GrownFrom join) (t.pollAll node).1.queue.holdMessages
      t.queue.holdMessages := by
  unfold pollAll
  suffices ∀ (ids : List MessageId) (acc : TopicData × List Effect),
      List.SublistForall₂ (GrownFrom join) (ids.foldl (fun acc id =>
        let r := pollMessage node acc.1 id; (r.1, acc.2 ++ r.2.2)) acc).1.queue.holdMessages
        acc.1.queue.holdMessages from this _ (t, [])
  intro ids
  induction ids with
  | nil => intro acc; exact grown_refl _
  | cons id ids ih => intro acc; exact grown_trans (grown_pollMessage node acc.1 id) (ih _)

/-- An admission keeps a sublist of the queue it pushes onto, grown, with none of the new id,
and then at most the new hold message. -/
theorem grown_pushAndPoll (node : NodeId) (t : TopicData) {q : MessageQueue} (h : HoldMessage)
    (hq : List.Sublist q.holdMessages t.queue.holdMessages) :
    ∃ kept fresh, (pushAndPoll node t q h).1.queue.holdMessages = kept ++ fresh ∧
      List.SublistForall₂ (GrownFrom join) kept t.queue.holdMessages ∧
      List.SublistForall₂ (GrownFrom join) fresh [h] ∧ ∀ x ∈ kept, ∀ y ∈ fresh, x.id ≠ y.id := by
  obtain ⟨kept, fresh, heq, hk, hf⟩ :=
    sublistForall₂_append_right
      (@grown_updateAndFlush join node { t with queue := q.push h } (.newEmpty h.id))
  refine ⟨kept, fresh, heq, grown_trans ((List.filter_sublist _).trans hq).sublistForall₂ hk, hf,
    fun x hx y hy => ?_⟩
  obtain ⟨x₀, hx₀, hgx⟩ := exists_of_sublistForall₂ hk x hx
  obtain ⟨y₀, hy₀, hgy⟩ := exists_of_sublistForall₂ hf y hy
  rw [List.mem_singleton.mp hy₀] at hgy
  rw [hgx.id_eq, hgy.id_eq]
  simpa using (List.mem_filter.mp hx₀).2

theorem grown_admitMessage {node : NodeId} {env : Env} {t : TopicData} {message : Message}
    {epCollect : Finset EndpointAddr} {r : TopicData × List Effect}
    (h : t.admitMessage node env message epCollect = .ok r) :
    ∃ kept fresh, r.1.queue.holdMessages = kept ++ fresh ∧
      List.SublistForall₂ (GrownFrom join) kept t.queue.holdMessages ∧
      List.SublistForall₂ (GrownFrom join) fresh [⟨message, .new message.ackKind epCollect env.now⟩] ∧
      ∀ x ∈ kept, ∀ y ∈ fresh, x.id ≠ y.id := by
  rcases admitMessage_cases h with rfl | ⟨old, q, hpop, rfl⟩ | ⟨-, rfl⟩
  · exact ⟨t.queue.holdMessages, [], by simp, grown_refl _, .nil, fun _ _ _ hy => by cases hy⟩
  · have hq := (MessageQueue.holdMessages_of_pop hpop).1
    exact grown_pushAndPoll node t _ (by simp [hq])
  · exact grown_pushAndPoll node t _ (.refl _)

/-- The hold message `hold_new_message` builds for a message, when it finds recipients. -/
def newHold (hash64 : ℕ → ℕ) (env : Env) (t : TopicData) (message : Message) :
    Option HoldMessage :=
  match t.recipients hash64 env message with
  | .ok (some epCollect) => some ⟨message, .new message.ackKind epCollect env.now⟩
  | _ => none

theorem grown_holdNewMessage {hash64 : ℕ → ℕ} {node : NodeId} {env : Env} {t : TopicData}
    {message : Message} {r : TopicData × List Effect}
    (h : t.holdNewMessage hash64 node env message = .ok r) :
    ∃ kept fresh, r.1.queue.holdMessages = kept ++ fresh ∧
      List.SublistForall₂ (GrownFrom join) kept t.queue.holdMessages ∧
      List.SublistForall₂ (GrownFrom join) fresh (t.newHold hash64 env message).toList ∧
      ∀ x ∈ kept, ∀ y ∈ fresh, x.id ≠ y.id := by
  rcases holdNewMessage_cases h with ⟨-, rfl⟩ | ⟨epCollect, hr, h⟩
  · exact ⟨t.queue.holdMessages, [], by simp, grown_refl _, .nil, fun _ _ _ hy => by cases hy⟩
  · simpa [newHold, hr] using grown_admitMessage h

/-- The loop of `ep_online` over the hold messages adds the endpoint's `Unsent` row exactly where
`needsRow` asks for it. -/
theorem grown_needsRow (m : InterestMap) (endpoint : EndpointAddr) (l : List HoldMessage) :
    List.Forall₂ (GrownFrom fun msg e => e = endpoint ∧ msg.header.targetKind = .durable ∧
        ∃ s ∈ msg.header.subjects, e ∈ m.find s)
      (l.map fun h => if needsRow m endpoint h then h.addUnsent endpoint else h) l := by
  refine List.forall₂_map_left_iff.mpr (List.forall₂_same.mpr fun h _ => ?_)
  split_ifs with hn
  · simp only [needsRow, decide_eq_true_eq] at hn
    exact grownFrom_addUnsent hn.2.1 ⟨rfl, hn.1, hn.2.2⟩
  · exact .refl h

/-- `ep_online` adds only rows for the endpoint, on Durable messages that it now matches. -/
theorem grown_epOnline (node : NodeId) (env : Env) (t : TopicData) (endpoint : EndpointAddr)
    (interests : List Interest) (host : NodeId) :
    List.SublistForall₂ (GrownFrom fun m e => e = endpoint ∧ m.header.targetKind = .durable ∧
        ∃ s ∈ m.header.subjects, e ∈ (t.epInterestMap.insertAll interests endpoint).find s)
      (t.epOnline node env endpoint interests host).1.queue.holdMessages t.queue.holdMessages := by
  exact grown_trans (grown_of_forall₂ (grown_needsRow _ endpoint _)) (grown_updateAndFlushEach node _ _)

end TopicData

/-! ## A step of a node -/

/-- The rows a step may add to a hold message already in the queue: a row for the endpoint an
`EndpointOnline` brings online, on a Durable message one of whose subjects the endpoint's
interests, the new ones with them, match. -/
def Event.joins (t : TopicData) : Event → Message → EndpointAddr → Prop
  | .apply (.endpointOnline endpoint interests _), m, e =>
    e = endpoint ∧ m.header.targetKind = .durable ∧
      ∃ s ∈ m.header.subjects, e ∈ (t.epInterestMap.insertAll interests endpoint).find s
  | _, _, _ => False

/-- The hold message a step admits: that of a `DelegateMessage` whose recipients are found. -/
def Event.admitted (hash64 : ℕ → ℕ) (env : Env) (t : TopicData) : Event → Option HoldMessage
  | .apply (.delegateMessage m) => t.newHold hash64 env m
  | _ => none

/-- The admitted hold message is the delegated message with a fresh `WaitAck` on its
recipients. -/
theorem Event.eq_of_mem_admitted {hash64 : ℕ → ℕ} {env : Env} {t : TopicData} {ev : Event}
    {x : HoldMessage} (hx : x ∈ (ev.admitted hash64 env t).toList) :
    ∃ m epCollect, ev = .apply (.delegateMessage m) ∧
      t.recipients hash64 env m = .ok (some epCollect) ∧
      x = ⟨m, .new m.ackKind epCollect env.now⟩ := by
  match ev, hx with
  | .apply (.delegateMessage m), hx =>
    simp only [Event.admitted, TopicData.newHold] at hx
    split at hx
    · rename_i epCollect hr
      simp only [Option.toList_some, List.mem_singleton] at hx
      subst hx
      exact ⟨m, epCollect, rfl, hr, rfl⟩
    · simp at hx

theorem grown_of_eq {l' l : List HoldMessage} (h : l' = l) (a : List HoldMessage) :
    ∃ kept fresh, l' = kept ++ fresh ∧ List.SublistForall₂ (GrownFrom join) kept l ∧
      List.SublistForall₂ (GrownFrom join) fresh a ∧ ∀ x ∈ kept, ∀ y ∈ fresh, x.id ≠ y.id :=
  ⟨l, [], by rw [h, List.append_nil], grown_refl l, .nil, fun _ _ _ hy => by cases hy⟩

/-- Every step keeps a sublist of the queue, in order, each hold message grown with the rows the
step may add, and then holds at most the hold message it admits, under an id that no kept hold
message has. -/
theorem queue_step {hash64 : ℕ → ℕ} {env : Env} {r r' : Replica} {ev : Event}
    {fx : List Effect} (h : Replica.step hash64 env r ev = .ok (r', fx)) :
    ∃ kept fresh, r'.topic.queue.holdMessages = kept ++ fresh ∧
      List.SublistForall₂ (GrownFrom (ev.joins r.topic)) kept r.topic.queue.holdMessages ∧
      List.SublistForall₂ (GrownFrom (ev.joins r.topic)) fresh
        (ev.admitted hash64 env r.topic).toList ∧
      ∀ x ∈ kept, ∀ y ∈ fresh, x.id ≠ y.id := by
  rcases Replica.step_queue h with ⟨m, rfl, hs⟩ | ⟨e, is, host, rfl, hs⟩ | ⟨u, rfl, hs⟩ |
    ⟨m, rfl, hq, -⟩ | ⟨-, -, hq, -⟩
  · exact TopicData.grown_holdNewMessage hs
  · have hg := TopicData.grown_epOnline r.node env r.topic e is host
    rw [hs] at hg
    exact ⟨_, [], (List.append_nil _).symm, hg, .nil, fun _ _ _ hy => by cases hy⟩
  · have hg := @TopicData.grown_updateAndFlush (fun _ _ => False) r.node r.topic u
    rw [hs] at hg
    exact ⟨_, [], (List.append_nil _).symm, hg, .nil, fun _ _ _ hy => by cases hy⟩
  · exact grown_of_eq (by rw [hq]; rfl) _
  · exact grown_of_eq (by rw [hq]) _

/-! ## The queue is a map by id -/

theorem nodup_of_grown {l' l : List HoldMessage} (h : List.SublistForall₂ (GrownFrom join) l' l)
    (hnd : (l.map HoldMessage.id).Nodup) : (l'.map HoldMessage.id).Nodup :=
  (map_id_sublist_of_grown h).nodup hnd

/-- Every step keeps the ids of the queue distinct. -/
theorem nodupIds_step {hash64 : ℕ → ℕ} {env : Env} {r r' : Replica} {ev : Event}
    {fx : List Effect} (hnd : (r.topic.queue.holdMessages.map HoldMessage.id).Nodup)
    (h : Replica.step hash64 env r ev = .ok (r', fx)) :
    (r'.topic.queue.holdMessages.map HoldMessage.id).Nodup := by
  obtain ⟨kept, fresh, heq, hk, hf, hdisj⟩ := queue_step h
  have hfresh : ((ev.admitted hash64 env r.topic).toList.map HoldMessage.id).Nodup := by
    cases ev.admitted hash64 env r.topic <;> simp
  rw [heq, List.map_append, List.nodup_append]
  refine ⟨nodup_of_grown hk hnd, nodup_of_grown hf hfresh, ?_⟩
  simp only [List.Disjoint, List.mem_map]
  rintro _ ⟨x, hx, rfl⟩ ⟨y, hy, hxy⟩
  exact hdisj x hx y hy hxy.symm

/-- A snapshot install leaves a queue of distinct ids, whatever the snapshot: the pushes replace
a repeated id. -/
theorem nodupIds_installSnapshot (r : Replica) (s : TopicSnapshot) :
    ((r.installSnapshot s).1.topic.queue.holdMessages.map HoldMessage.id).Nodup := by
  have hq := @MessageQueue.nodup_foldl_push r.topic.queue.clear List.nodup_nil
    (s.queue.map fromDurable)
  rw [List.foldl_map] at hq
  exact nodup_of_grown (@TopicData.grown_flush (fun _ _ => False) _)
    (nodup_of_grown (@TopicData.grown_pollAll (fun _ _ => False) _ _) hq)

/-- On every run of a node, over steps and snapshot installs, the ids of the queue are
distinct: the list of hold messages is the map by id that `hold_messages` is. -/
theorem nodupIds_exec {hash64 : ℕ → ℕ} {node : NodeId} {config : TopicConfig}
    {inputs : List Input} {r : Replica} {fx : List Effect}
    (h : Replica.exec hash64 (.new node config) inputs = .ok (r, fx)) :
    (r.topic.queue.holdMessages.map HoldMessage.id).Nodup :=
  @Replica.exec_invariant hash64 (fun r => (r.topic.queue.holdMessages.map HoldMessage.id).Nodup)
    (fun _ _ _ _ _ hnd hs => nodupIds_step hnd hs) (fun r s _ => nodupIds_installSnapshot r s)
    inputs (.new node config) r fx List.nodup_nil h

/-- The lookup by id finds a hold message of the queue with that id. -/
theorem MessageQueue.get?_spec {q : MessageQueue} {id : MessageId} {h : HoldMessage}
    (hg : q.get? id = some h) : h ∈ q.holdMessages ∧ h.id = id :=
  ⟨List.mem_of_find?_eq_some hg, by simpa using List.find?_some hg⟩

/-! ## Rows only rise -/

/-- From every state a node reaches over steps and snapshot installs, a step keeps every row of
a message it holds under the same id before and after: the row is still there, not lowered, and
as it was if it had failed. The step must not delegate a message whose id the queue holds,
which would replace the hold message, rows and all. -/
theorem status_monotone {hash64 : ℕ → ℕ} {node : NodeId} {config : TopicConfig}
    {inputs : List Input} {r : Replica} {τ : List Effect}
    (hreach : Replica.exec hash64 (.new node config) inputs = .ok (r, τ))
    {env : Env} {ev : Event} {r' : Replica} {fx : List Effect}
    (hfresh : ∀ m, ev.delegation = some m → r.topic.queue.get? m.id = none)
    (h : Replica.step hash64 env r ev = .ok (r', fx)) (id : MessageId) {h₀ h₁ : HoldMessage}
    (h₀get : r.topic.queue.get? id = some h₀) (h₁get : r'.topic.queue.get? id = some h₁) :
    RowsKept h₁ h₀ := by
  obtain ⟨hh₀, hid₀⟩ := MessageQueue.get?_spec h₀get
  obtain ⟨hh₁, hid₁⟩ := MessageQueue.get?_spec h₁get
  obtain ⟨kept, fresh, heq, hk, hf, -⟩ := queue_step h
  rw [heq] at hh₁
  rcases List.mem_append.mp hh₁ with hh₁ | hh₁
  · obtain ⟨x, hx, hg⟩ := exists_of_sublistForall₂ hk h₁ hh₁
    obtain rfl : x = h₀ := List.inj_on_of_nodup_map (nodupIds_exec hreach) hx hh₀
      (hg.id_eq.symm.trans (hid₁.trans hid₀.symm))
    exact hg.rowsKept
  · obtain ⟨x, hx, hg⟩ := exists_of_sublistForall₂ hf h₁ hh₁
    obtain ⟨m, _, hev, -, hxm⟩ := Event.eq_of_mem_admitted hx
    have hmid : m.id = id := by rw [← hid₁, hg.id_eq, hxm]; rfl
    have hnone := hfresh m (by rw [hev]; rfl)
    rw [hmid, h₀get] at hnone
    cases hnone

/-- Message 1 waits on endpoint 20 of node 2. -/
def unsentInputs : List Input :=
  [.step ⟨0, .id⟩ (.apply (.endpointOnline 20 [⟨[.literal "s"]⟩] 2)),
    .step ⟨0, .id⟩ (.apply (.delegateMessage ⟨⟨1, .processed, .durable, [⟨["s"]⟩]⟩⟩))]

/-- Endpoint 20 acknowledges message 1 as `Received`. -/
theorem status_monotone_ack :
    ∃ r τ r' fx h₀ h₁, Replica.exec id (.new 1 ⟨⟨[]⟩, none⟩) unsentInputs = .ok (r, τ) ∧
      Replica.step id ⟨0, .id⟩ r (.apply (.messageStateUpdate ⟨1, [(20, .received)]⟩)) =
        .ok (r', fx) ∧
      r.topic.queue.get? 1 = some h₀ ∧ r'.topic.queue.get? 1 = some h₁ ∧ RowsKept h₁ h₀ :=
  ⟨_, _, _, _, _, _, rfl, rfl, rfl, rfl, @status_monotone id 1 ⟨⟨[]⟩, none⟩ unsentInputs _ _ rfl
    ⟨0, .id⟩ (.apply (.messageStateUpdate ⟨1, [(20, .received)]⟩)) _ _ (fun _ hm => by cases hm)
    rfl 1 _ _ rfl rfl⟩

/-- A second `DelegateMessage` of message 1, after endpoint 20 has acknowledged it as `Received`,
replaces the hold message: the row is `Unsent` again. -/
theorem status_lowered_by_redelegation :
    ∃ r τ r' fx, Replica.exec id (.new 1 ⟨⟨[]⟩, none⟩)
        (unsentInputs ++ [.step ⟨0, .id⟩ (.apply (.messageStateUpdate ⟨1, [(20, .received)]⟩))]) =
        .ok (r, τ) ∧
      Replica.step id ⟨0, .id⟩ r
        (.apply (.delegateMessage ⟨⟨1, .processed, .durable, [⟨["s"]⟩]⟩⟩)) = .ok (r', fx) ∧
      (r.topic.queue.get? 1).map (·.waitAck.status.lookup 20) = some (some .received) ∧
      (r'.topic.queue.get? 1).map (·.waitAck.status.lookup 20) = some (some .unsent) :=
  ⟨_, _, _, _, rfl, rfl, by decide, by decide⟩

/-! ## Where rows come from -/

/-- Where the rows of hold message `h` come from on the run `evs` from `r`: a `DelegateMessage`
of its message in the run admitted it, at the replica the events before it reach, with a row for
each recipient that admission computed; each of its other rows is for an endpoint that a later
`EndpointOnline` joined to the message (`Event.joins`), at the replica the events before that one
reach. -/
def RowsOrigin (hash64 : ℕ → ℕ) (r : Replica) (evs : List (Env × Event)) (h : HoldMessage) :
    Prop :=
  ∃ pre env post r₀ fx₀ epCollect,
    evs = pre ++ (env, .apply (.delegateMessage h.message)) :: post ∧
    Replica.run hash64 r pre = .ok (r₀, fx₀) ∧
    r₀.topic.recipients hash64 env h.message = .ok (some epCollect) ∧
    ∀ e ∈ h.waitAck.status, e ∈ epCollect ∨
      ∃ mid env' ev' rest r₁ fx₁, post = mid ++ (env', ev') :: rest ∧
        Replica.run hash64 r (pre ++ (env, .apply (.delegateMessage h.message)) :: mid) =
          .ok (r₁, fx₁) ∧
        ev'.joins r₁.topic h.message e

/-- A step keeps the origin of the rows of every hold message: a kept one has only the rows it
had and those the step joins, and the admitted one only its recipients. -/
theorem rowsOrigin_step {hash64 : ℕ → ℕ} {r₀ r r' : Replica} {past : List (Env × Event)}
    {τ fx : List Effect} {p : Env × Event} (hrun : Replica.run hash64 r₀ past = .ok (r, τ))
    (hold : ∀ h ∈ r.topic.queue.holdMessages, RowsOrigin hash64 r₀ past h)
    (hs : Replica.step hash64 p.1 r p.2 = .ok (r', fx)) :
    ∀ h ∈ r'.topic.queue.holdMessages, RowsOrigin hash64 r₀ (past ++ [p]) h := by
  obtain ⟨kept, fresh, heq, hk, hf, -⟩ := queue_step hs
  intro h hh
  rw [heq] at hh
  rcases List.mem_append.mp hh with hh | hh
  · obtain ⟨x, hx, hg⟩ := exists_of_sublistForall₂ hk h hh
    obtain ⟨pre, env, post, r₁, fx₁, epCollect, rfl, hr₁, hrec, hrows⟩ := hold x hx
    refine ⟨pre, env, post ++ [p], r₁, fx₁, epCollect, by simp [hg.message_eq], hr₁,
      hg.message_eq ▸ hrec, fun e he => ?_⟩
    rw [hg.message_eq]
    rcases hg.row_new e he with he | hj
    · rcases hrows e he with he | ⟨mid, env', ev', rest, r₂, fx₂, rfl, hr₂, hj⟩
      · exact .inl he
      · exact .inr ⟨mid, env', ev', rest ++ [p], r₂, fx₂, by simp, hr₂, hj⟩
    · exact .inr ⟨post, p.1, p.2, [], r, τ, rfl, hrun, hj⟩
  · obtain ⟨x, hx, hg⟩ := exists_of_sublistForall₂ hf h hh
    obtain ⟨m, epCollect, hev, hrec, rfl⟩ := Event.eq_of_mem_admitted hx
    obtain ⟨env, ev⟩ := p
    dsimp only at hev hg
    subst hev
    refine ⟨past, env, [], r, τ, epCollect, by rw [hg.message_eq], hrun, by rw [hg.message_eq, hrec],
      fun e he => .inl ?_⟩
    simpa [Event.joins, WaitAck.new] using hg.row_new e he

/-- Every row of every hold message held after a run from a fresh node comes from the message's
admission or from a later `EndpointOnline` that joined the endpoint to it. -/
theorem statusRows_origin {hash64 : ℕ → ℕ} {node : NodeId} {config : TopicConfig}
    {evs : List (Env × Event)} {r : Replica} {fx : List Effect}
    (hrun : Replica.run hash64 (.new node config) evs = .ok (r, fx)) :
    ∀ h ∈ r.topic.queue.holdMessages, RowsOrigin hash64 (.new node config) evs h :=
  (@Replica.feed_invariant (Env × Event) (fun r p => Replica.step hash64 p.1 r p.2)
    (fun past r τ => Replica.run hash64 (.new node config) past = .ok (r, τ) ∧
      ∀ h ∈ r.topic.queue.holdMessages, RowsOrigin hash64 (.new node config) past h)
    (fun _ _ _ _ _ _ hp hs => ⟨Replica.run_snoc_ok hp.1 hs, rowsOrigin_step hp.1 hp.2 hs⟩)
    evs [] _ r [] fx ⟨rfl, fun _ hh => by cases hh⟩ hrun).2

/-- Message 1 is admitted for endpoint 20, and endpoint 30 joins it when it comes online. -/
def lateJoinerRun : List (Env × Event) :=
  [(⟨0, .id⟩, .apply (.endpointOnline 20 [⟨[.literal "s"]⟩] 2)),
    (⟨0, .id⟩, .apply (.delegateMessage ⟨⟨1, .processed, .durable, [⟨["s"]⟩]⟩⟩)),
    (⟨0, .id⟩, .apply (.endpointOnline 30 [⟨[.literal "s"]⟩] 2))]

theorem statusRows_origin_lateJoiner :
    ∃ r fx, Replica.run id (.new 1 ⟨⟨[]⟩, none⟩) lateJoinerRun = .ok (r, fx) ∧
      r.topic.queue.holdMessages.map (·.waitAck.status.keys) = [{20, 30}] ∧
      ∀ h ∈ r.topic.queue.holdMessages, RowsOrigin id (.new 1 ⟨⟨[]⟩, none⟩) lateJoinerRun h :=
  ⟨_, _, rfl, by decide, statusRows_origin rfl⟩

end AsteroidMq
