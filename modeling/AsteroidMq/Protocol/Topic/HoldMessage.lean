import AsteroidMq.Protocol.Interest
import Mathlib.Data.List.Sort

/-!
# Hold messages and the message queue

Modelled from the spec: `wait_ack.rs` and `hold_message.rs`, which are not part of the sources at
hand. A hold message pairs a message with its `WaitAck`: the ack kind it requires, the status of
each recipient and the second it was admitted (exported as `DurableMessage::time`). The queue
keeps the hold messages in admission order. `waiting` is the local registry of reporters: a reporter is
resolved by taking it out of the registry and sending one `WaitAckResult`, which the model
records as an `Effect`.

The queue is `hold_messages`, a map keyed by message id, together with the admission order:
`push` inserts by id, so a hold message with the id of one already held replaces it, and the
new one, admitted last, goes to the tail. The ids along the queue therefore stay distinct
(`nodup_push`), and the lookup by id finds the one hold message with that id.

`update_ack` raises a row only along `MessageStatusKind.lt` and never adds a row; `flush` pops
complete heads, reporting their final status.
-/

namespace AsteroidMq

/-- A per-endpoint status map (`HashMap<EndpointAddr, MessageStatusKind>`). -/
abbrev StatusMap := Finmap fun _ : EndpointAddr => MessageStatusKind

/-- Every endpoint of a set at `Unsent`. -/
def unsentStatus (eps : Finset EndpointAddr) : StatusMap :=
  ⟨eps.val.map fun e => ⟨e, .unsent⟩, by
    rcases eps with ⟨⟨l⟩, hl⟩
    show List.NodupKeys (l.map _)
    simpa [List.NodupKeys, List.keys, Function.comp_def] using hl⟩

theorem lookup_unsentStatus (eps : Finset EndpointAddr) (e : EndpointAddr) :
    (unsentStatus eps).lookup e = if e ∈ eps then some .unsent else none := by
  split_ifs with h
  · rw [Finmap.lookup_eq_some_iff]
    simp [unsentStatus, h]
  · rw [Finmap.lookup_eq_none, ← Finmap.mem_keys]
    simpa [unsentStatus, Finmap.keys, Multiset.keys, Function.comp_def] using h

@[simp] theorem mem_unsentStatus {eps : Finset EndpointAddr} {e : EndpointAddr} :
    e ∈ unsentStatus eps ↔ e ∈ eps := by
  rw [Finmap.mem_iff, lookup_unsentStatus]
  split_ifs <;> simp [*]

/-- The members of a finite set of naturals in ascending order, by insertion sort: the order in
which the model walks a hash container whose order does not matter. -/
def enumerate (s : Finset ℕ) : List ℕ :=
  Quot.liftOn s.val (List.insertionSort (· ≤ ·)) fun _ _ h =>
    List.eq_of_perm_of_sorted
      ((List.perm_insertionSort _ _).trans (h.trans (List.perm_insertionSort _ _).symm))
      (List.sorted_insertionSort _ _) (List.sorted_insertionSort _ _)

@[simp] theorem mem_enumerate {s : Finset ℕ} {a : ℕ} : a ∈ enumerate s ↔ a ∈ s := by
  rcases s with ⟨⟨l⟩, _⟩
  exact (List.perm_insertionSort _ l).mem_iff

theorem nodup_enumerate (s : Finset ℕ) : (enumerate s).Nodup := by
  rcases s with ⟨⟨l⟩, hl⟩
  exact (List.perm_insertionSort _ l).nodup_iff.mpr hl

/-! ## `WaitAck` -/

/-- Modelled from the spec: `WaitAck`. -/
structure WaitAck where
  expect : MessageAckExpectKind
  status : StatusMap
  timestamp : TimestampSec
  deriving DecidableEq

namespace WaitAck

/-- `WaitAck::new`: every recipient at `Unsent`, stamped with the admission second. -/
def new (expect : MessageAckExpectKind) (eps : Finset EndpointAddr) (now : TimestampSec) :
    WaitAck :=
  ⟨expect, unsentStatus eps, now⟩

/-- Complete: every row settles the required ack kind or has failed. -/
def isResolved (w : WaitAck) : Bool :=
  decide (∀ e ∈ w.status.keys, (w.status.lookup e).all (·.settles w.expect))

/-- The endpoints still at `Unsent`, the ones a poll dispatches to. -/
def unsentEndpoints (w : WaitAck) : Finset EndpointAddr :=
  w.status.keys.filter fun e => w.status.lookup e = some .unsent

theorem isResolved_iff (w : WaitAck) :
    w.isResolved = true ↔ ∀ e s, w.status.lookup e = some s → s.settles w.expect = true := by
  simp only [isResolved, decide_eq_true_eq, Finmap.mem_keys]
  constructor
  · intro h e s hs
    simpa [hs] using h e (Finmap.mem_of_lookup_eq_some hs)
  · intro h e he
    obtain ⟨s, hs⟩ := Finmap.mem_iff.mp he
    simpa [hs] using h e s hs

theorem mem_unsentEndpoints {w : WaitAck} {e : EndpointAddr} :
    e ∈ w.unsentEndpoints ↔ w.status.lookup e = some .unsent := by
  simp only [unsentEndpoints, Finset.mem_filter, Finmap.mem_keys, and_iff_right_iff_imp]
  exact Finmap.mem_of_lookup_eq_some

end WaitAck

/-! ## Hold messages -/

/-- `HoldMessage`: a message held in the queue with its ack state. -/
structure HoldMessage where
  message : Message
  waitAck : WaitAck
  deriving DecidableEq

/-- Modelled from the spec: `DurableMessage`, a hold message as stored in a snapshot. -/
structure DurableMessage where
  message : Message
  status : StatusMap
  time : TimestampSec
  deriving DecidableEq

namespace HoldMessage

/-- The message id, the key of `hold_messages`. -/
def id (h : HoldMessage) : MessageId :=
  h.message.id

/-- Write one row of the status map. -/
def setRow (h : HoldMessage) (ep : EndpointAddr) (status : MessageStatusKind) : HoldMessage :=
  { h with waitAck := { h.waitAck with status := h.waitAck.status.insert ep status } }

/-- Modelled from the spec: one `update_ack` row write. A row is raised when the new status is an
upgrade of the old one; an absent row stays absent. -/
def updateAck (h : HoldMessage) (ep : EndpointAddr) (status : MessageStatusKind) : HoldMessage :=
  match h.waitAck.status.lookup ep with
  | some old => if old.lt status then h.setRow ep status else h
  | none => h

/-- An `Unsent` row for the endpoint (`status.insert(endpoint, Unsent)` in `ep_online`). -/
def addUnsent (h : HoldMessage) (endpoint : EndpointAddr) : HoldMessage :=
  h.setRow endpoint .unsent

/-- Modelled from the spec: record dispatch results, `Ok` as `Sent` and `Err` as `Unreachable`. -/
def applyResults (h : HoldMessage) (results : List (EndpointAddr × Bool)) : HoldMessage :=
  results.foldl (fun h r => h.setRow r.1 (if r.2 then .sent else .unreachable)) h

@[simp] theorem setRow_message (h : HoldMessage) (ep : EndpointAddr) (s : MessageStatusKind) :
    (h.setRow ep s).message = h.message := rfl

@[simp] theorem setRow_expect (h : HoldMessage) (ep : EndpointAddr) (s : MessageStatusKind) :
    (h.setRow ep s).waitAck.expect = h.waitAck.expect := rfl

@[simp] theorem setRow_timestamp (h : HoldMessage) (ep : EndpointAddr) (s : MessageStatusKind) :
    (h.setRow ep s).waitAck.timestamp = h.waitAck.timestamp := rfl

@[simp] theorem setRow_status (h : HoldMessage) (ep : EndpointAddr) (s : MessageStatusKind) :
    (h.setRow ep s).waitAck.status = h.waitAck.status.insert ep s := rfl

/-- Modelled from the spec: `HoldMessage::as_durable`. -/
def asDurable (h : HoldMessage) : DurableMessage :=
  ⟨h.message, h.waitAck.status, h.waitAck.timestamp⟩

/-- Modelled from the spec: `HoldMessage::from_durable`; the ack kind is the message's own. -/
def fromDurable (d : DurableMessage) : HoldMessage :=
  ⟨d.message, ⟨d.message.ackKind, d.status, d.time⟩⟩

end HoldMessage

/-! ## Reports -/

/-- Modelled from the spec: `WaitAckErrorException`, the errors reported to a waiter. -/
inductive WaitAckErrorException
  | overflow
  | noAvailableTarget
  | messageDropped
  deriving DecidableEq, Repr

/-- Modelled from the spec: what a reporter sends, `Ok` with the final status map or an error. -/
inductive WaitAckResult
  | ok (status : StatusMap)
  | exception (e : WaitAckErrorException)
  deriving DecidableEq

/-- What a replica does outside its state: push a message into a local endpoint's mailbox, or
resolve the waiter of a message id. -/
inductive Effect
  | push (ep : EndpointAddr) (message : Message)
  | report (id : MessageId) (result : WaitAckResult)
  deriving DecidableEq

/-- `std::task::Poll<()>`. -/
inductive Poll
  | ready
  | pending
  deriving DecidableEq, Repr

/-! ## The queue -/

/-- Rewrite the first hold message with the given id (a `hold_messages.get_mut(&id)`). -/
def modifyHold (id : MessageId) (f : HoldMessage → HoldMessage) :
    List HoldMessage → List HoldMessage
  | [] => []
  | h :: hs => if h.id = id then f h :: hs else h :: modifyHold id f hs

@[simp] theorem length_modifyHold (id : MessageId) (f : HoldMessage → HoldMessage)
    (l : List HoldMessage) : (modifyHold id f l).length = l.length := by
  induction l with
  | nil => rfl
  | cons h hs ih => unfold modifyHold; split <;> simp [ih]

/-- Modelled from the spec: `MessageQueue`, the hold messages in admission order and the
registry of waiters by message id. -/
structure MessageQueue where
  holdMessages : List HoldMessage
  waiting : Finset MessageId
  deriving DecidableEq

namespace MessageQueue

instance : EmptyCollection MessageQueue :=
  ⟨⟨[], ∅⟩⟩

@[simp] theorem holdMessages_empty : (∅ : MessageQueue).holdMessages = [] := rfl

@[simp] theorem waiting_empty : (∅ : MessageQueue).waiting = ∅ := rfl

/-- `MessageQueue::len`. -/
def len (q : MessageQueue) : ℕ :=
  q.holdMessages.length

/-- Modelled from the spec: `MessageQueue::push`, the hash insert into `hold_messages` and the
tail append: a hold message with the same id is replaced. -/
def push (q : MessageQueue) (h : HoldMessage) : MessageQueue :=
  { q with holdMessages := q.holdMessages.filter (fun x => x.id ≠ h.id) ++ [h] }

/-- Modelled from the spec: `MessageQueue::new`, a queue of the given hold messages, each pushed
in turn, with no waiter. -/
def new (hs : List HoldMessage) : MessageQueue :=
  hs.foldl push ∅

/-- `MessageQueue::pop`: take the head. -/
def pop (q : MessageQueue) : Option (HoldMessage × MessageQueue) :=
  match q.holdMessages with
  | [] => none
  | h :: hs => some (h, { q with holdMessages := hs })

/-- `MessageQueue::clear`: drop every hold message. -/
def clear (q : MessageQueue) : MessageQueue :=
  { q with holdMessages := [] }

/-- `MessageQueue::wait_ack`: register a waiter for a message id. -/
def waitAck (q : MessageQueue) (id : MessageId) : MessageQueue :=
  { q with waiting := Insert.insert id q.waiting }

/-- `if let Some(report) = queue.waiting.remove(&id) { report.send(result) }`. -/
def resolve (q : MessageQueue) (id : MessageId) (result : WaitAckResult) :
    MessageQueue × List Effect :=
  if id ∈ q.waiting then ({ q with waiting := q.waiting.erase id }, [.report id result])
  else (q, [])

/-- The `hold_messages` lookup by id. -/
def get? (q : MessageQueue) (id : MessageId) : Option HoldMessage :=
  q.holdMessages.find? fun h => h.id = id

/-- Modelled from the spec: `MessageQueue::update_ack`. -/
def updateAck (q : MessageQueue) (id : MessageId) (ep : EndpointAddr)
    (status : MessageStatusKind) : MessageQueue :=
  { q with holdMessages := modifyHold id (·.updateAck ep status) q.holdMessages }

/-- The `update_ack` of every row of an update, in the update's order. -/
def updateAcks (q : MessageQueue) (u : MessageStateUpdate) : MessageQueue :=
  u.status.foldl (fun q r => q.updateAck u.messageId r.1 r.2) q

/-- The loop of `flush` over the hold messages, threading the registry. -/
def flushFrom : List HoldMessage → Finset MessageId → MessageQueue × List Effect
  | [], w => (⟨[], w⟩, [])
  | h :: hs, w =>
    if h.waitAck.isResolved then
      let r := (MessageQueue.mk hs w).resolve h.id (.ok h.waitAck.status)
      let r' := flushFrom hs r.1.waiting
      (r'.1, r.2 ++ r'.2)
    else (⟨h :: hs, w⟩, [])

/-- Modelled from the spec: `MessageQueue::flush`, pop the head while it is complete and report
its final status to its waiter. -/
def flush (q : MessageQueue) : MessageQueue × List Effect :=
  flushFrom q.holdMessages q.waiting

theorem holdMessages_of_pop {q q' : MessageQueue} {h : HoldMessage} (hp : q.pop = some (h, q')) :
    q.holdMessages = h :: q'.holdMessages ∧ q'.waiting = q.waiting := by
  unfold pop at hp
  split at hp
  · cases hp
  · cases hp; simp_all

theorem pop_eq_none {q : MessageQueue} : q.pop = none ↔ q.holdMessages = [] := by
  unfold pop; split <;> simp_all

@[simp] theorem push_holdMessages (q : MessageQueue) (h : HoldMessage) :
    (q.push h).holdMessages = q.holdMessages.filter (fun x => x.id ≠ h.id) ++ [h] := rfl

/-- A push of a new id appends. -/
theorem push_holdMessages_of_not_mem {q : MessageQueue} {h : HoldMessage}
    (hid : h.id ∉ q.holdMessages.map HoldMessage.id) :
    (q.push h).holdMessages = q.holdMessages ++ [h] := by
  rw [push_holdMessages, List.filter_eq_self.mpr fun x hx => by
    simpa using fun he => hid (List.mem_map.mpr ⟨x, hx, he⟩)]

theorem push_sublist (q : MessageQueue) (h : HoldMessage) :
    (q.push h).holdMessages.Sublist (q.holdMessages ++ [h]) :=
  (List.filter_sublist _).append (.refl _)

/-- A push keeps the ids distinct: the hold message it replaces leaves the queue. -/
theorem nodup_push {q : MessageQueue} (hq : (q.holdMessages.map HoldMessage.id).Nodup)
    (h : HoldMessage) : ((q.push h).holdMessages.map HoldMessage.id).Nodup := by
  rw [push_holdMessages, List.map_append, List.nodup_append]
  refine ⟨(hq.sublist ((List.filter_sublist _).map _)), List.nodup_singleton _, ?_⟩
  simp [List.disjoint_singleton]

/-- A sequence of pushes keeps the ids distinct. -/
theorem nodup_foldl_push {q : MessageQueue} (hq : (q.holdMessages.map HoldMessage.id).Nodup)
    (hs : List HoldMessage) : ((hs.foldl push q).holdMessages.map HoldMessage.id).Nodup := by
  induction hs generalizing q with
  | nil => exact hq
  | cons h hs ih => exact ih (nodup_push hq h)

/-- A push of a sequence of hold messages keeps only hold messages it found or pushed. -/
theorem mem_foldl_push {q : MessageQueue} {hs : List HoldMessage} {x : HoldMessage}
    (hx : x ∈ (hs.foldl push q).holdMessages) : x ∈ q.holdMessages ∨ x ∈ hs := by
  induction hs generalizing q with
  | nil => exact .inl hx
  | cons h hs ih =>
    rcases ih hx with hx | hx
    · rw [push_holdMessages, List.mem_append, List.mem_singleton] at hx
      rcases hx with hx | rfl
      · exact .inl (List.mem_filter.mp hx).1
      · exact .inr (List.mem_cons_self _ _)
    · exact .inr (List.mem_cons_of_mem _ hx)

/-- Pushing hold messages of new, distinct ids appends them. -/
theorem holdMessages_foldl_push {q : MessageQueue} {hs : List HoldMessage}
    (hnd : ((q.holdMessages ++ hs).map HoldMessage.id).Nodup) :
    (hs.foldl push q).holdMessages = q.holdMessages ++ hs := by
  induction hs generalizing q with
  | nil => simp
  | cons h hs ih =>
    have hnew : h.id ∉ q.holdMessages.map HoldMessage.id := by
      rw [List.map_append, List.map_cons] at hnd
      exact fun hm => (List.nodup_append.mp hnd).2.2 hm (List.mem_cons_self _ _)
    have hq : (q.push h).holdMessages = q.holdMessages ++ [h] :=
      push_holdMessages_of_not_mem hnew
    rw [List.foldl_cons, ih (by rwa [hq, List.append_assoc]), hq, List.append_assoc]
    rfl

/-- Distinct ids pushed onto a queue with no hold messages are held in push order, as
`MessageQueue::new` and `apply_snapshot` build their queues. -/
theorem holdMessages_foldl_push_of_nil {q : MessageQueue} {hs : List HoldMessage}
    (hq : q.holdMessages = []) (hnd : (hs.map HoldMessage.id).Nodup) :
    (hs.foldl push q).holdMessages = hs := by
  rw [holdMessages_foldl_push (by rwa [hq, List.nil_append]), hq, List.nil_append]

theorem len_push_le (q : MessageQueue) (h : HoldMessage) : (q.push h).len ≤ q.len + 1 := by
  simpa [len] using List.length_filter_le _ q.holdMessages

@[simp] theorem push_waiting (q : MessageQueue) (h : HoldMessage) :
    (q.push h).waiting = q.waiting := rfl

@[simp] theorem updateAck_holdMessages (q : MessageQueue) (id : MessageId) (ep : EndpointAddr)
    (status : MessageStatusKind) :
    (q.updateAck id ep status).holdMessages = modifyHold id (·.updateAck ep status) q.holdMessages :=
  rfl

@[simp] theorem updateAck_waiting (q : MessageQueue) (id : MessageId) (ep : EndpointAddr)
    (status : MessageStatusKind) : (q.updateAck id ep status).waiting = q.waiting := rfl

@[simp] theorem updateAcks_waiting (q : MessageQueue) (u : MessageStateUpdate) :
    (q.updateAcks u).waiting = q.waiting := by
  unfold updateAcks
  induction u.status generalizing q with
  | nil => rfl
  | cons r rs ih => exact ih _

@[simp] theorem len_updateAcks (q : MessageQueue) (u : MessageStateUpdate) :
    (q.updateAcks u).len = q.len := by
  unfold updateAcks
  induction u.status generalizing q with
  | nil => rfl
  | cons r rs ih => exact (ih _).trans (by simp [len])

/-- Resolving a waiter takes its id out of the registry, whether or not it was there. -/
theorem resolve_fst (q : MessageQueue) (id : MessageId) (r : WaitAckResult) :
    (q.resolve id r).1 = { q with waiting := q.waiting.erase id } := by
  unfold resolve; split
  · rfl
  · rw [Finset.erase_eq_of_not_mem ‹_›]

@[simp] theorem resolve_holdMessages (q : MessageQueue) (id : MessageId) (r : WaitAckResult) :
    (q.resolve id r).1.holdMessages = q.holdMessages := by
  rw [resolve_fst]

@[simp] theorem len_resolve (q : MessageQueue) (id : MessageId) (r : WaitAckResult) :
    (q.resolve id r).1.len = q.len := by
  simp [len]

@[simp] theorem resolve_waiting (q : MessageQueue) (id : MessageId) (r : WaitAckResult) :
    (q.resolve id r).1.waiting = q.waiting.erase id := by
  rw [resolve_fst]

theorem resolve_effects (q : MessageQueue) (id : MessageId) (r : WaitAckResult) :
    (q.resolve id r).2 = if id ∈ q.waiting then [.report id r] else [] := by
  unfold resolve; split <;> rfl

/-- `flush` drops the complete prefix of the queue. -/
theorem flushFrom_holdMessages (hs : List HoldMessage) (w : Finset MessageId) :
    (flushFrom hs w).1.holdMessages = hs.dropWhile (·.waitAck.isResolved) := by
  induction hs generalizing w with
  | nil => rfl
  | cons h hs ih => unfold flushFrom; split <;> simp_all

@[simp] theorem flush_holdMessages (q : MessageQueue) :
    q.flush.1.holdMessages = q.holdMessages.dropWhile (·.waitAck.isResolved) :=
  flushFrom_holdMessages _ _

end MessageQueue

end AsteroidMq
