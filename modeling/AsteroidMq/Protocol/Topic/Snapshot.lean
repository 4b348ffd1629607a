import AsteroidMq.Protocol.Topic.Data

/-!
# Snapshots

Reference: `src/src/protocol/topic.rs`, `TopicSnapshot`, `TopicData::snapshot`,
`TopicData::from_snapshot` and `Topic::apply_snapshot`.

`snapshot` lists the hold messages by walking `hold_messages.values()`, a `HashMap`, so the
order of the snapshot's queue is the hasher's: an `IterOrder` input. The two install paths are
different code. `from_snapshot` sorts the queue by `time` (`sort_by_key`, a stable sort, here the
stable insertion sort) and builds the topic with no poll and no flush; the `TopicData` it first
builds with `TopicData::new` and fills is dropped for `MessageQueue::new(queue)` on the same
sorted messages, which pushes them in turn. `apply_snapshot` keeps its own config and local
endpoints, refills the queue in the snapshot's order, and then runs `poll_all` and `flush` with
its topic as context.
-/

namespace AsteroidMq

/-- `TopicSnapshot`. -/
structure TopicSnapshot where
  config : TopicConfig
  epRoutingTable : Finmap fun _ : EndpointAddr => NodeId
  epInterestMap : Finmap fun _ : EndpointAddr => Finset Interest
  epLatestActive : Finmap fun _ : EndpointAddr => TimestampSec
  queue : List DurableMessage
  deriving DecidableEq

namespace TopicData

/-- `TopicData::snapshot`, with `hold_messages.values()` walked in the order `order`. -/
def snapshot (t : TopicData) (order : IterOrder HoldMessage) : TopicSnapshot :=
  ⟨t.config, t.epRoutingTable, t.epInterestMap.raw, t.epLatestActive,
    (order.arrange t.queue.holdMessages).map HoldMessage.asDurable⟩

/-- `TopicData::from_snapshot`. -/
def fromSnapshot (s : TopicSnapshot) : TopicData :=
  let queue := s.queue.insertionSort fun a b => a.time ≤ b.time
  ⟨s.config, ∅, s.epRoutingTable, .fromRaw s.epInterestMap, s.epLatestActive,
    .new (queue.map HoldMessage.fromDurable)⟩

/-- `Topic::apply_snapshot` on node `node`. -/
def applySnapshot (node : NodeId) (t : TopicData) (s : TopicSnapshot) :
    TopicData × List Effect :=
  let t₁ : TopicData :=
    { t with
      epRoutingTable := s.epRoutingTable
      epInterestMap := .fromRaw s.epInterestMap
      epLatestActive := s.epLatestActive
      queue := s.queue.foldl (fun q m => q.push (.fromDurable m)) t.queue.clear }
  let p := t₁.pollAll node
  let f := p.1.flush
  (f.1, p.2 ++ f.2)

end TopicData

end AsteroidMq
